import SkyClaw.Reasoning.Faultless
import SkyClaw.Reasoning.Termination

/-!
# Breadth-first search finds the shallowest solution

The queue holds nodes of two levels at most, the lower one last.  So a state is marked at the least
depth at which it waits, and the states it leads to are met one level below.
-/

namespace SkyClaw.Reasoning

open BoundedSearch (Covered Swept)

variable {σ S ε R η : Type} [LinearOrder R] [Zero R] [DecidableEq σ] [DecidableEq η]
variable {p : Problem σ S ε R η} {cfg : ToTConfig R} {generator : σ → List (σ × String)}
  {checker : σ → Option S}

/-! ## A turn -/

/-- What a turn does that goes on. -/
inductive BfsTurn (p : Problem σ S ε R η) (cfg : ToTConfig R) (generator : σ → List (σ × String))
    (search search' : Search σ S R η) (current : ThoughtNode σ R)
    (queue : List (ThoughtNode σ R)) : List (ThoughtNode σ R) → Prop
  | bound : cfg.maxDepth ≤ current.depth → search' = search →
      BfsTurn p cfg generator search search' current queue queue
  | repeated : p.stateHash current.state ∈ search.visited → search' = search →
      BfsTurn p cfg generator search search' current queue queue
  | expanded (children : List (ThoughtNode σ R)) : current.depth < cfg.maxDepth →
      search'.visited = p.stateHash current.state :: search.visited →
      IsFamily generator current children →
      BfsTurn p cfg generator search search' current queue (queue ++ children)

variable {solution : S}

theorem bfs_found (h : Faultless p cfg generator checker) (E : Expansion σ S ε R η)
    (search : Search σ S R η) {current : ThoughtNode σ R} (queue : List (ThoughtNode σ R)) (hfound : checker current.state = some solution) :
    (bfsSearchStrategy p cfg).turn E (search, current :: queue) =
      .inr ({ search with solutions := search.solutions ++ [solution] }, .ok (some solution)) := by
  unfold Strategy.turn
  simp only [bfsSearchStrategy, bfsInspect, h.atNode_some search hfound]
  rfl

/-- **A node that is no solution** is dropped, or it is marked and its children wait. -/
theorem bfs_next (h : Faultless p cfg generator checker) (schedule : Schedule σ R)
    {search : Search σ S R η} (halive : search.Alive) {current : ThoughtNode σ R}
    (queue : List (ThoughtNode σ R)) (hnone : checker current.state = none) :
    ∃ search' queue', (bfsSearchStrategy p cfg).turn (expandNode p cfg schedule)
        (search, current :: queue) = .inl (search', queue') ∧ search'.Alive ∧
      BfsTurn p cfg generator search search' current queue queue' := by
  unfold Strategy.turn
  simp only [bfsSearchStrategy, bfsInspect, h.atNode_none search hnone]
  split
  · next hbound => exact ⟨search, queue, rfl, halive, .bound hbound rfl⟩
  · next hbound =>
      split
      · next hvisited =>
          exact ⟨search, queue, rfl, halive, .repeated (isVisited_iff.mp hvisited) rfl⟩
      · have hmarked : (markVisited p search current).Alive := halive
        obtain ⟨expanded, children, hexpand, hexpanded⟩ := h.expandNode schedule current hmarked
        obtain ⟨pruned, hprune, halive', hvisited, _⟩ :=
          h.applyPruning hexpanded.alive hexpanded.family.score
        refine ⟨pruned, queue ++ children, ?_, halive', .expanded children (by omega) ?_
          hexpanded.family⟩
        · simp only [Action.perform, hexpand, hprune, keep]
        · rw [hvisited, hexpanded.visited]
          rfl

/-! ## The invariant -/

/-- The nodes that wait, by state and depth. -/
def Waits (queue : List (ThoughtNode σ R)) (state : σ) (depth : Nat) : Prop :=
  ∃ node ∈ queue, node.state = state ∧ node.depth = depth

/-- **The invariant**, with the states that have been expanded and at which depth. -/
structure BfsInvariant (p : Problem σ S ε R η) (cfg : ToTConfig R)
    (generator : σ → List (σ × String)) (checker : σ → Option S) (start : σ)
    (search : Search σ S R η) (queue : List (ThoughtNode σ R)) (expanded : σ → Nat → Prop) :
    Prop where
  alive : search.Alive
  walk : ∀ node ∈ queue, BoundedSearch.Walk (LeadsTo generator) node.depth start node.state
  bounded : ∀ node ∈ queue, node.depth ≤ cfg.maxDepth
  sorted : queue.Pairwise fun first second => first.depth ≤ second.depth
  near : ∀ first ∈ queue, ∀ second ∈ queue, second.depth ≤ first.depth + 1
  marked : ∀ state, p.stateHash state ∈ search.visited → ∃ depth, expanded state depth
  above : ∀ state depth, expanded state depth → ∀ node ∈ queue, depth ≤ node.depth
  swept : Swept (LeadsTo generator) (fun state => checker state ≠ none) cfg.maxDepth start
    (Waits queue) expanded

omit [LinearOrder R] [Zero R] [DecidableEq σ] [DecidableEq η] in
theorem bfsInvariant_start [One R] (initialState : σ) (initialThought : String) :
    BfsInvariant p cfg generator checker initialState Search.reset
      [rootNode initialState initialThought] fun _ _ => False := by
  constructor
  · intro path hdead
    cases hdead
  · simp [rootNode]
  · simp [rootNode]
  · exact List.pairwise_singleton _ _
  · simp
  · simp [Search.reset]
  · intro state depth hfalse
    exact hfalse.elim
  · constructor
    · exact .inl ⟨0, le_rfl, _, List.mem_singleton.mpr rfl, rfl, rfl⟩
    · intro state depth hfalse
      exact hfalse.elim

variable {state : σ} {depth : Nat}

omit [LinearOrder R] [Zero R] [DecidableEq σ] in
theorem waits_cons {current : ThoughtNode σ R} {queue : List (ThoughtNode σ R)} (h : Waits (current :: queue) state depth) :
    Waits queue state depth ∨ state = current.state ∧ depth = current.depth := by
  obtain ⟨node, hmem, rfl, rfl⟩ := h
  rcases List.mem_cons.mp hmem with rfl | hmem
  · exact .inr ⟨rfl, rfl⟩
  · exact .inl ⟨node, hmem, rfl, rfl⟩

omit [LinearOrder R] [Zero R] [DecidableEq σ] in
theorem Waits.append {queue : List (ThoughtNode σ R)}
    (h : Waits queue state depth) (children : List (ThoughtNode σ R)) :
    Waits (queue ++ children) state depth := by
  obtain ⟨node, hmem, hnode⟩ := h
  exact ⟨node, List.mem_append_left children hmem, hnode⟩

section Step

variable {start : σ} {search search' : Search σ S R η} {current : ThoughtNode σ R}
  {queue : List (ThoughtNode σ R)} {expanded : σ → Nat → Prop}

omit [DecidableEq σ] [DecidableEq η]

omit [LinearOrder R] [Zero R] in
/-- **A node is dropped** that is at the bound, or whose state has been expanded. -/
theorem BfsInvariant.drop
    (h : BfsInvariant p cfg generator checker start search (current :: queue) expanded)
    (hnone : checker current.state = none)
    (hdone : cfg.maxDepth ≤ current.depth ∨ ∃ d ≤ current.depth, expanded current.state d) :
    BfsInvariant p cfg generator checker start search queue expanded := by
  have hcovered : ∀ state depth, Waits (current :: queue) state depth →
      Waits queue state depth ∨ ¬checker state ≠ none ∧
        (cfg.maxDepth ≤ depth ∨ ∃ d ≤ depth, expanded state d) := by
    intro state depth hwaits
    rcases waits_cons hwaits with hrest | ⟨rfl, rfl⟩
    · exact .inl hrest
    · exact .inr ⟨not_not.mpr hnone, hdone⟩
  constructor
  · exact h.alive
  · exact fun node hnode => h.walk node (List.mem_cons_of_mem _ hnode)
  · exact fun node hnode => h.bounded node (List.mem_cons_of_mem _ hnode)
  · exact (List.pairwise_cons.mp h.sorted).2
  · intro first hfirst second hsecond
    exact h.near first (List.mem_cons_of_mem _ hfirst) second (List.mem_cons_of_mem _ hsecond)
  · exact h.marked
  · exact fun state depth hexpanded node hnode =>
      h.above state depth hexpanded node (List.mem_cons_of_mem _ hnode)
  · constructor
    · exact h.swept.initial.imp hcovered fun _ _ hd => hd
    · intro state depth hexpanded next hnext
      exact (h.swept.closed state depth hexpanded next hnext).imp hcovered fun _ _ hd => hd

/-- **A node is expanded**: its state is marked, and its children wait behind the others. -/
theorem BfsInvariant.expand {children : List (ThoughtNode σ R)}
    (h : BfsInvariant p cfg generator checker start search (current :: queue) expanded)
    (hinjective : Function.Injective p.stateHash) (hnone : checker current.state = none)
    (hdepth : current.depth < cfg.maxDepth) (halive : search'.Alive)
    (hvisited : search'.visited = p.stateHash current.state :: search.visited)
    (hfamily : IsFamily generator current children) :
    BfsInvariant p cfg generator checker start search' (queue ++ children)
      fun state depth => expanded state depth ∨ state = current.state ∧ depth = current.depth := by
  have hfirst : ∀ node ∈ queue, current.depth ≤ node.depth := (List.pairwise_cons.mp h.sorted).1
  have hlast : ∀ node ∈ queue, node.depth ≤ current.depth + 1 := fun node hnode =>
    h.near current List.mem_cons_self node (List.mem_cons_of_mem _ hnode)
  have hcurrent : ∀ node ∈ queue ++ children,
      current.depth ≤ node.depth ∧ node.depth ≤ current.depth + 1 := by
    intro node hnode
    rcases List.mem_append.mp hnode with hold | hnew
    · exact ⟨hfirst node hold, hlast node hold⟩
    · rw [hfamily.depth node hnew]
      omega
  have hcovered : ∀ state depth, Waits (current :: queue) state depth →
      Waits (queue ++ children) state depth ∨ ¬checker state ≠ none ∧
        (cfg.maxDepth ≤ depth ∨ ∃ d ≤ depth,
          expanded state d ∨ state = current.state ∧ d = current.depth) := by
    intro state depth hwaits
    rcases waits_cons hwaits with hrest | ⟨rfl, rfl⟩
    · exact .inl (hrest.append children)
    · exact .inr ⟨not_not.mpr hnone, .inr ⟨current.depth, le_rfl, .inr ⟨rfl, rfl⟩⟩⟩
  constructor
  · exact halive
  · intro node hnode
    rcases List.mem_append.mp hnode with hold | hnew
    · exact h.walk node (List.mem_cons_of_mem _ hold)
    · rw [hfamily.depth node hnew]
      exact (h.walk current List.mem_cons_self).snoc (hfamily.leads hnew)
  · intro node hnode
    have hle := (hcurrent node hnode).2
    omega
  · apply List.pairwise_append.mpr
    refine ⟨(List.pairwise_cons.mp h.sorted).2, ?_, ?_⟩
    · apply List.pairwise_of_forall_mem_list
      intro first hfirst second hsecond
      rw [hfamily.depth first hfirst, hfamily.depth second hsecond]
    · intro first hfirst second hsecond
      rw [hfamily.depth second hsecond]
      exact hlast first hfirst
  · intro first hfirst second hsecond
    have hlow := (hcurrent first hfirst).1
    have hhigh := (hcurrent second hsecond).2
    omega
  · intro state hstate
    rw [hvisited] at hstate
    rcases List.mem_cons.mp hstate with hnew | hold
    · exact ⟨current.depth, .inr ⟨hinjective hnew, rfl⟩⟩
    · obtain ⟨depth, hexpanded⟩ := h.marked state hold
      exact ⟨depth, .inl hexpanded⟩
  · rintro state depth (hold | ⟨_, rfl⟩) node hnode
    · exact (h.above state depth hold current List.mem_cons_self).trans (hcurrent node hnode).1
    · exact (hcurrent node hnode).1
  · constructor
    · exact h.swept.initial.imp hcovered fun _ _ hd => .inl hd
    · rintro state depth (hold | ⟨rfl, rfl⟩) next hnext
      · exact (h.swept.closed state depth hold next hnext).imp hcovered fun _ _ hd => .inl hd
      · obtain ⟨child, hchild, rfl⟩ := hfamily.complete next hnext
        refine .inl ⟨current.depth + 1, le_rfl, child, List.mem_append_right _ hchild, rfl, ?_⟩
        exact hfamily.depth child hchild

/-- **A turn keeps the invariant.** -/
theorem BfsInvariant.next {queue' : List (ThoughtNode σ R)}
    (h : BfsInvariant p cfg generator checker start search (current :: queue) expanded)
    (hinjective : Function.Injective p.stateHash) (hnone : checker current.state = none)
    (halive : search'.Alive) (hturn : BfsTurn p cfg generator search search' current queue queue') :
    ∃ expanded', BfsInvariant p cfg generator checker start search' queue' expanded' := by
  cases hturn with
  | bound hbound hsame =>
      subst hsame
      exact ⟨expanded, h.drop hnone (.inl hbound)⟩
  | repeated hvisited hsame =>
      subst hsame
      obtain ⟨depth, hexpanded⟩ := h.marked _ hvisited
      refine ⟨expanded, h.drop hnone (.inr ⟨depth, ?_, hexpanded⟩)⟩
      exact h.above _ depth hexpanded current List.mem_cons_self
  | expanded children hdepth hvisited hfamily =>
      exact ⟨_, h.expand hinjective hnone hdepth halive hvisited hfamily⟩

omit [LinearOrder R] [Zero R] in
theorem BfsInvariant.none_above
    (h : BfsInvariant p cfg generator checker start search queue expanded) {n : Nat} {state : σ}
    (hdeep : ∀ node ∈ queue, n < node.depth) (hn : n ≤ cfg.maxDepth)
    (hwalk : BoundedSearch.Walk (LeadsTo generator) n start state) : checker state = none := by
  have hgoal := h.swept.not_goal (n := n) (t := state) ?_ hn hwalk
  · exact not_not.mp hgoal
  · rintro other depth ⟨node, hnode, _, rfl⟩
    exact hdeep node hnode

end Step

/-! ## The search -/

/-- The solution that a search ends with is that of a state at the least depth; if it ends with
none, there is none up to the bound. -/
def FindsShallowest (cfg : ToTConfig R) (generator : σ → List (σ × String))
    (checker : σ → Option S) (start : σ) (outcome : Result σ S ε R η (Option S)) : Prop :=
  ∃ solution, outcome.2 = .ok solution ∧
    (solution.isSome ↔ ∃ k ≤ cfg.maxDepth, ∃ state,
      BoundedSearch.Walk (LeadsTo generator) k start state ∧
      (checker state).isSome) ∧
    ∀ found, solution = some found → ∃ k ≤ cfg.maxDepth, ∃ state,
      BoundedSearch.Walk (LeadsTo generator) k start state ∧ checker state = some found ∧
        ∀ j < k, ∀ other, BoundedSearch.Walk (LeadsTo generator) j start other → checker other = none

omit [LinearOrder R] [Zero R] [DecidableEq σ] [DecidableEq η] in
theorem BfsInvariant.exhausted {start : σ} {search : Search σ S R η} {expanded : σ → Nat → Prop}
    (h : BfsInvariant p cfg generator checker start search [] expanded) :
    FindsShallowest (ε := ε) cfg generator checker start (search, .ok none) := by
  refine ⟨none, rfl, ?_, fun _ => nofun⟩
  refine iff_of_false nofun ?_
  rintro ⟨k, hk, state, hwalk, hsome⟩
  rw [h.none_above (by simp) hk hwalk] at hsome
  cases hsome

omit [LinearOrder R] [Zero R] [DecidableEq σ] [DecidableEq η] in
theorem BfsInvariant.found {start : σ} {search search' : Search σ S R η}
    {current : ThoughtNode σ R} {queue : List (ThoughtNode σ R)} {expanded : σ → Nat → Prop}
    (h : BfsInvariant p cfg generator checker start search (current :: queue) expanded) (hsome : checker current.state = some solution) :
    FindsShallowest (ε := ε) cfg generator checker start (search', .ok (some solution)) := by
  have hwalk := h.walk current List.mem_cons_self
  have hbound := h.bounded current List.mem_cons_self
  refine ⟨some solution, rfl, ?_, ?_⟩
  · exact iff_of_true rfl ⟨current.depth, hbound, current.state, hwalk, by simp [hsome]⟩
  · intro found hfound
    cases hfound
    refine ⟨current.depth, hbound, current.state, hwalk, hsome, ?_⟩
    intro j hj other hother
    refine h.none_above ?_ (by omega) hother
    intro node hnode
    rcases List.mem_cons.mp hnode with rfl | hrest
    · exact hj
    · exact hj.trans_le ((List.pairwise_cons.mp h.sorted).1 node hrest)

/-- **Every end of the search** is right. -/
theorem findsShallowest_of_searches [One R] (h : Faultless p cfg generator checker)
    {schedule : Schedule σ R} {initialState : σ} {initialThought : String}
    {outcome : Result σ S ε R η (Option S)}
    (hsearch : Searches p cfg schedule .bfs (rootNode initialState initialThought) outcome) :
    FindsShallowest cfg generator checker initialState outcome := by
  refine WhileLoop.Returns.of_invariant
    (I := fun s => ∃ expanded, BfsInvariant p cfg generator checker initialState s.1 s.2 expanded)
    ?_ ?_ hsearch ⟨_, bfsInvariant_start initialState initialThought⟩
  · rintro ⟨search, queue⟩ t ⟨expanded, hinv⟩ hturn
    cases queue with
    | nil => cases hturn
    | cons current queue =>
        cases hchecker : checker current.state with
        | some solution =>
            exact absurd (hturn.symm.trans (bfs_found h _ search queue hchecker)) nofun
        | none =>
            obtain ⟨search', queue', heq, halive, hstep⟩ :=
              bfs_next h schedule hinv.alive queue hchecker
            cases hturn.symm.trans heq
            exact hinv.next h.injective hchecker halive hstep
  · rintro ⟨search, queue⟩ result ⟨expanded, hinv⟩ hturn
    cases queue with
    | nil =>
        cases hturn
        exact hinv.exhausted
    | cons current queue =>
        cases hchecker : checker current.state with
        | some solution =>
            cases hturn.symm.trans (bfs_found h _ search queue hchecker)
            exact hinv.found hchecker
        | none =>
            obtain ⟨search', queue', heq, _⟩ := bfs_next h schedule hinv.alive queue hchecker
            exact absurd (hturn.symm.trans heq) nofun

/-- **Breadth-first search is sound, complete and shallowest.** -/
theorem bfs_findsShallowest [One R] (h : Faultless p cfg generator checker)
    (schedule : Schedule σ R) (initialState : σ) (initialThought : String) :
    ∃ outcome, Searches p cfg schedule .bfs (rootNode initialState initialThought) outcome ∧
      FindsShallowest cfg generator checker initialState outcome := by
  obtain ⟨outcome, hsearch⟩ := exists_searches p schedule .bfs
    (rootNode initialState initialThought)
  exact ⟨outcome, hsearch, findsShallowest_of_searches h hsearch⟩

/-- A goal with a long way and a short one. -/
theorem bfs_findsShallowest_detour :
    ∃ outcome, Searches (graphProblem detour detourScore 5) (graphConfig 3 false)
        Schedule.inOrder .bfs (rootNode 0 "start") outcome ∧
      FindsShallowest (graphConfig 3 false) detour
        (fun state => if 5 ≤ state then some state else none) 0 outcome :=
  bfs_findsShallowest (graph_faultless detour detourScore 5 3 false) Schedule.inOrder 0 "start"

end SkyClaw.Reasoning
