import SkyClaw.Reasoning.BreadthFirst

/-!
# Searches that meet states out of order

Depth-first and best-first search mark a state at the depth at which they meet it first.  A state
that is met at the bound is marked and not expanded, and then it is not expanded on a shorter way
either: `finds_of_not_blocked` says that nothing else makes them miss what breadth-first search
finds.
-/

namespace SkyClaw.Reasoning

open BoundedSearch (Explored Blocked)

variable {σ S ε R η : Type} [LinearOrder R] [Zero R] [DecidableEq σ] [DecidableEq η]
variable {p : Problem σ S ε R η} {cfg : ToTConfig R} {generator : σ → List (σ × String)}
  {checker : σ → Option S}

def Accepted (checker : σ → Option S) (state : σ) : Prop := checker state ≠ none

def Marked (p : Problem σ S ε R η) (search : Search σ S R η) (state : σ) : Prop :=
  p.stateHash state ∈ search.visited

omit [LinearOrder R] [Zero R] [DecidableEq σ] [DecidableEq η] in
theorem marked_iff {search search' : Search σ S R η} {state other : σ}
    (hinjective : Function.Injective p.stateHash)
    (hvisited : search'.visited = p.stateHash state :: search.visited) :
    Marked p search' other ↔ other = state ∨ Marked p search other := by
  unfold Marked
  rw [hvisited, List.mem_cons, hinjective.eq_iff]

/-- The invariant of both searches, for the states that are pending. -/
abbrev Explores (p : Problem σ S ε R η) (cfg : ToTConfig R) (generator : σ → List (σ × String))
    (checker : σ → Option S) (start : σ) (search : Search σ S R η) (pending : σ → Prop) : Prop :=
  Explored (LeadsTo generator) (Accepted checker) cfg.maxDepth start (Marked p search) pending

section Explores

variable {start : σ} {search search' : Search σ S R η} {pending pending' : σ → Prop}

omit [LinearOrder R] [Zero R] [DecidableEq σ] [DecidableEq η]

theorem explores_drop (h : Explores p cfg generator checker start search pending)
    (hpending : ∀ s, pending s → Marked p search s ∨ pending' s) :
    Explores p cfg generator checker start search pending' :=
  h.imp (fun _ hs => hs) hpending fun _ hs => .inl hs

/-- **A state is marked** at the bound, or with all it leads to pending. -/
theorem explores_mark (h : Explores p cfg generator checker start search pending) {state : σ}
    {depth : Nat} (hinjective : Function.Injective p.stateHash) (hnone : checker state = none)
    (hwalk : BoundedSearch.Walk (LeadsTo generator) depth start state)
    (hvisited : search'.visited = p.stateHash state :: search.visited)
    (hpending : ∀ s, pending s → s = state ∨ pending' s)
    (hnext : depth = cfg.maxDepth ∨ ∀ next, LeadsTo generator state next → pending' next) :
    Explores p cfg generator checker start search' pending' := by
  have hmarked : ∀ s, Marked p search' s ↔ s = state ∨ Marked p search s := fun s =>
    marked_iff hinjective hvisited
  refine h.imp ?_ ?_ ?_
  · exact fun s hs => (hmarked s).mpr (.inr hs)
  · exact fun s hs => (hpending s hs).imp_left fun heq => (hmarked s).mpr (.inl heq)
  · intro s hs
    rcases (hmarked s).mp hs with rfl | hold
    · refine .inr ⟨not_not.mpr hnone, depth, hwalk, ?_⟩
      exact hnext.imp_right fun hall next hleads => .inr (hall next hleads)
    · exact .inl hold

end Explores

/-! ## Best-first -/

/-- The state that a path of candidates leads to. -/
def stateAt (generator : σ → List (σ × String)) (start : σ) : List Nat → Option σ
  | [] => some start
  | i :: path => (stateAt generator start path).bind fun state =>
      (generator state)[i]?.map Prod.fst

/-- What a turn of best-first search does that goes on. -/
inductive BestFirstTurn (p : Problem σ S ε R η) (cfg : ToTConfig R)
    (generator : σ → List (σ × String)) (checker : σ → Option S)
    (search search' : Search σ S R η) (current : ThoughtNode σ R)
    (queue : List (ThoughtNode σ R)) (visitedIds : List String) : BestFirst σ R → Prop
  | seen : p.nodeId current.path ∈ visitedIds → search' = search →
      BestFirstTurn p cfg generator checker search search' current queue visitedIds
        ⟨queue, visitedIds⟩
  | repeated : Marked p search current.state → search' = search →
      BestFirstTurn p cfg generator checker search search' current queue visitedIds
        ⟨queue, p.nodeId current.path :: visitedIds⟩
  | bound : checker current.state = none → cfg.maxDepth ≤ current.depth →
      search'.visited = p.stateHash current.state :: search.visited →
      BestFirstTurn p cfg generator checker search search' current queue visitedIds
        ⟨queue, p.nodeId current.path :: visitedIds⟩
  | expanded (children queue' : List (ThoughtNode σ R)) : checker current.state = none →
      current.depth < cfg.maxDepth →
      search'.visited = p.stateHash current.state :: search.visited →
      IsFamily generator current children → queue'.Perm (queue ++ children) →
      BestFirstTurn p cfg generator checker search search' current queue visitedIds
        ⟨queue', p.nodeId current.path :: visitedIds⟩

/-- **A turn of best-first search** finds a solution, or goes on. -/
theorem bestFirst_turn (h : Faultless p cfg generator checker) (schedule : Schedule σ R)
    {search : Search σ S R η} (halive : search.Alive) (current : ThoughtNode σ R)
    (queue : List (ThoughtNode σ R)) (visitedIds : List String) :
    (∃ search' solution, (bestFirstSearchStrategy p cfg).turn (expandNode p cfg schedule)
        (search, ⟨current :: queue, visitedIds⟩) = .inr (search', .ok (some solution))) ∨
      ∃ search' frontier, (bestFirstSearchStrategy p cfg).turn (expandNode p cfg schedule)
          (search, ⟨current :: queue, visitedIds⟩) = .inl (search', frontier) ∧ search'.Alive ∧
        BestFirstTurn p cfg generator checker search search' current queue visitedIds frontier := by
  unfold Strategy.turn
  simp only [bestFirstSearchStrategy, bestFirstInspect]
  split
  · next hseen => exact .inr ⟨search, _, rfl, halive, .seen hseen rfl⟩
  · split
    · next hvisited =>
        exact .inr ⟨search, _, rfl, halive, .repeated (isVisited_iff.mp hvisited) rfl⟩
    · cases hchecker : checker current.state with
      | some solution =>
          rw [h.atNode_some _ hchecker]
          exact .inl ⟨_, solution, rfl⟩
      | none =>
          rw [h.atNode_none _ hchecker]
          have hmarked : (markVisited p search current).Alive := halive
          split
          · next hbound => exact .inr ⟨_, _, rfl, hmarked, .bound hchecker hbound rfl⟩
          · obtain ⟨expanded, children, hexpand, hexpanded⟩ :=
              h.expandNode schedule current hmarked
            obtain ⟨pruned, hprune, halive', hvisited, _⟩ :=
              h.applyPruning hexpanded.alive hexpanded.family.score
            refine .inr ⟨pruned, ⟨children.foldl (heappush p) queue, _⟩, ?_, halive',
              .expanded children _ hchecker (by omega) ?_ hexpanded.family
                (foldl_heappush_perm p children queue)⟩
            · simp only [Action.perform, hexpand, hprune, keep]
            · rw [hvisited, hexpanded.visited]
              rfl

/-- **The invariant of best-first search.** -/
structure BestFirstInvariant (p : Problem σ S ε R η) (cfg : ToTConfig R)
    (generator : σ → List (σ × String)) (checker : σ → Option S) (start : σ)
    (search : Search σ S R η) (frontier : BestFirst σ R) : Prop where
  alive : search.Alive
  walk : ∀ node ∈ frontier.priorityQueue, BoundedSearch.Walk (LeadsTo generator) node.depth start node.state
  bounded : ∀ node ∈ frontier.priorityQueue, node.depth ≤ cfg.maxDepth
  path : ∀ node ∈ frontier.priorityQueue, stateAt generator start node.path = some node.state
  ids : ∀ id ∈ frontier.visitedIds, ∃ path state, p.nodeId path = id ∧
    stateAt generator start path = some state ∧ Marked p search state
  explores : Explores p cfg generator checker start search fun state =>
    ∃ node ∈ frontier.priorityQueue, node.state = state

omit [LinearOrder R] [Zero R] [DecidableEq σ] [DecidableEq η] in
theorem bestFirstInvariant_start [One R] (initialState : σ) (initialThought : String) :
    BestFirstInvariant p cfg generator checker initialState Search.reset
      ⟨[rootNode initialState initialThought], []⟩ := by
  constructor
  · intro path hdead
    cases hdead
  · simp [rootNode]
  · simp [rootNode]
  · simp [rootNode, stateAt]
  · simp
  · constructor
    · exact .inr ⟨_, List.mem_singleton.mpr rfl, rfl⟩
    · intro state hmarked
      cases hmarked

section Step

variable {start : σ} {search search' : Search σ S R η} {current : ThoughtNode σ R}
  {queue : List (ThoughtNode σ R)} {visitedIds : List String}

omit [DecidableEq σ] [DecidableEq η]

omit [LinearOrder R] [Zero R] in
theorem BestFirstInvariant.ids_cons
    (h : BestFirstInvariant p cfg generator checker start search ⟨current :: queue, visitedIds⟩)
    (hkept : ∀ state, Marked p search state → Marked p search' state)
    (hmarked : Marked p search' current.state) :
    ∀ id ∈ p.nodeId current.path :: visitedIds, ∃ path state, p.nodeId path = id ∧
      stateAt generator start path = some state ∧ Marked p search' state := by
  intro id hid
  rcases List.mem_cons.mp hid with rfl | hold
  · exact ⟨current.path, current.state, rfl, h.path current List.mem_cons_self, hmarked⟩
  · obtain ⟨path, state, hpath, hstate, hmarked⟩ := h.ids id hold
    exact ⟨path, state, hpath, hstate, hkept state hmarked⟩

omit [LinearOrder R] [Zero R] in
theorem BestFirstInvariant.drop
    (h : BestFirstInvariant p cfg generator checker start search ⟨current :: queue, visitedIds⟩)
    (hmarked : Marked p search current.state) :
    Explores p cfg generator checker start search fun state =>
      ∃ node ∈ queue, node.state = state := by
  refine explores_drop h.explores ?_
  rintro state ⟨node, hnode, rfl⟩
  rcases List.mem_cons.mp hnode with rfl | hrest
  · exact .inl hmarked
  · exact .inr ⟨node, hrest, rfl⟩

omit [LinearOrder R] [Zero R] in
theorem BestFirstInvariant.marked_of_seen
    (h : BestFirstInvariant p cfg generator checker start search ⟨current :: queue, visitedIds⟩)
    (hseen : p.nodeId current.path ∈ visitedIds) : Marked p search current.state := by
  obtain ⟨path, state, hpath, hstate, hmarked⟩ := h.ids _ hseen
  obtain rfl := p.nodeId_injective hpath
  have hsame := h.path current List.mem_cons_self
  rw [hstate] at hsame
  rwa [← Option.some.inj hsame]

omit [LinearOrder R] [Zero R] in
theorem BestFirstInvariant.rest
    (h : BestFirstInvariant p cfg generator checker start search ⟨current :: queue, visitedIds⟩) :
    (∀ node ∈ queue, BoundedSearch.Walk (LeadsTo generator) node.depth start node.state) ∧
      (∀ node ∈ queue, node.depth ≤ cfg.maxDepth) ∧
      ∀ node ∈ queue, stateAt generator start node.path = some node.state :=
  ⟨fun node hnode => h.walk node (List.mem_cons_of_mem _ hnode),
    fun node hnode => h.bounded node (List.mem_cons_of_mem _ hnode),
    fun node hnode => h.path node (List.mem_cons_of_mem _ hnode)⟩

/-- **A turn keeps the invariant.** -/
theorem BestFirstInvariant.next {frontier : BestFirst σ R}
    (h : BestFirstInvariant p cfg generator checker start search ⟨current :: queue, visitedIds⟩)
    (hinjective : Function.Injective p.stateHash) (halive : search'.Alive)
    (hturn : BestFirstTurn p cfg generator checker search search' current queue visitedIds
      frontier) : BestFirstInvariant p cfg generator checker start search' frontier := by
  have hwalk := h.walk current List.mem_cons_self
  have hbounded := h.bounded current List.mem_cons_self
  obtain ⟨hwalks, hdepths, hpaths⟩ := h.rest
  cases hturn with
  | seen hseen hsame =>
      subst hsame
      exact ⟨halive, hwalks, hdepths, hpaths, h.ids, h.drop (h.marked_of_seen hseen)⟩
  | repeated hvisited hsame =>
      subst hsame
      exact ⟨halive, hwalks, hdepths, hpaths, h.ids_cons (fun _ hs => hs) hvisited, h.drop hvisited⟩
  | bound hnone hbound hvisited =>
      have hmarked : ∀ state, Marked p search' state ↔
          state = current.state ∨ Marked p search state := fun _ => marked_iff hinjective hvisited
      refine ⟨halive, hwalks, hdepths, hpaths,
        h.ids_cons (fun _ hs => (hmarked _).mpr (.inr hs)) ((hmarked _).mpr (.inl rfl)), ?_⟩
      -- A node at the bound has no states behind it to wait for.
      refine explores_mark h.explores hinjective hnone hwalk hvisited ?_
        (.inl (hbounded.antisymm hbound))
      rintro state ⟨node, hnode, rfl⟩
      rcases List.mem_cons.mp hnode with rfl | hrest
      · exact .inl rfl
      · exact .inr ⟨node, hrest, rfl⟩
  | expanded children queue' hnone hdepth hvisited hfamily hperm =>
      have hmarked : ∀ state, Marked p search' state ↔
          state = current.state ∨ Marked p search state := fun _ => marked_iff hinjective hvisited
      have hmem : ∀ node ∈ queue', node ∈ queue ∨ node ∈ children := fun node hnode =>
        List.mem_append.mp (hperm.subset hnode)
      refine ⟨halive, ?_, ?_, ?_,
        h.ids_cons (fun _ hs => (hmarked _).mpr (.inr hs)) ((hmarked _).mpr (.inl rfl)), ?_⟩
      · intro node hnode
        rcases hmem node hnode with hold | hnew
        · exact hwalks node hold
        · rw [hfamily.depth node hnew]
          exact hwalk.snoc (hfamily.leads hnew)
      · intro node hnode
        rcases hmem node hnode with hold | hnew
        · exact hdepths node hold
        · rw [hfamily.depth node hnew]
          omega
      · intro node hnode
        rcases hmem node hnode with hold | hnew
        · exact hpaths node hold
        · obtain ⟨i, hpath, hstate⟩ := hfamily.path node hnew
          rw [hpath, stateAt, h.path current List.mem_cons_self, Option.bind_some, hstate]
      · refine explores_mark h.explores hinjective hnone hwalk hvisited ?_ (.inr ?_)
        · rintro state ⟨node, hnode, rfl⟩
          rcases List.mem_cons.mp hnode with rfl | hrest
          · exact .inl rfl
          · exact .inr ⟨node, hperm.symm.subset (List.mem_append_left _ hrest), rfl⟩
        · intro next hnext
          obtain ⟨child, hchild, hstate⟩ := hfamily.complete next hnext
          exact ⟨child, hperm.symm.subset (List.mem_append_right _ hchild), hstate⟩

end Step

/-- A solution is found, or every state that is accepted up to the bound is blocked. -/
def FindsOrBlocked (cfg : ToTConfig R) (generator : σ → List (σ × String))
    (checker : σ → Option S) (start : σ) (outcome : Result σ S ε R η (Option S)) : Prop :=
  (∃ solution, outcome.2 = .ok (some solution)) ∨
    ∀ k ≤ cfg.maxDepth, ∀ state, BoundedSearch.Walk (LeadsTo generator) k start state →
      Accepted checker state → Blocked (LeadsTo generator) (Accepted checker) cfg.maxDepth start

variable {schedule : Schedule σ R} {initialState : σ} {initialThought : String}

theorem bestFirst_findsOrBlocked [One R] (h : Faultless p cfg generator checker)
    {outcome : Result σ S ε R η (Option S)}
    (hsearch : Searches p cfg schedule .bestFirst (rootNode initialState initialThought) outcome) :
    FindsOrBlocked cfg generator checker initialState outcome := by
  refine WhileLoop.Returns.of_invariant
    (I := fun s => BestFirstInvariant p cfg generator checker initialState s.1 s.2)
    ?_ ?_ hsearch (bestFirstInvariant_start initialState initialThought)
  · rintro ⟨search, queue, visitedIds⟩ t hinv hturn
    cases queue with
    | nil => cases hturn
    | cons current queue =>
        rcases bestFirst_turn h schedule hinv.alive current queue visitedIds with
          ⟨search', solution, heq⟩ | ⟨search', frontier, heq, halive, hstep⟩
        · exact absurd (hturn.symm.trans heq) nofun
        · cases hturn.symm.trans heq
          exact hinv.next h.injective halive hstep
  · rintro ⟨search, queue, visitedIds⟩ result hinv hturn
    cases queue with
    | nil =>
        right
        intro k hk state hwalk haccepted
        exact hinv.explores.blocked (by simp) hwalk hk haccepted
    | cons current queue =>
        rcases bestFirst_turn h schedule hinv.alive current queue visitedIds with
          ⟨search', solution, heq⟩ | ⟨search', frontier, heq, _⟩
        · cases hturn.symm.trans heq
          exact .inl ⟨solution, rfl⟩
        · exact absurd (hturn.symm.trans heq) nofun

/-! ## Depth-first -/

/-- What a turn of depth-first search does that goes on. -/
inductive DfsTurn (p : Problem σ S ε R η) (cfg : ToTConfig R) (generator : σ → List (σ × String))
    (search search' : Search σ S R η) (current : ThoughtNode σ R)
    (stack : List (ThoughtNode σ R × Nat)) : Nat → List (ThoughtNode σ R × Nat) → Prop
  | repeated : Marked p search current.state → search' = search →
      DfsTurn p cfg generator search search' current stack 0 stack
  | bound : cfg.maxDepth ≤ current.depth →
      search'.visited = p.stateHash current.state :: search.visited →
      search'.children = search.children →
      DfsTurn p cfg generator search search' current stack 0 stack
  | expanded : current.depth < cfg.maxDepth →
      search'.visited = p.stateHash current.state :: search.visited →
      IsFamily generator current (search'.children current) →
      (search.children current = [] ∨ search'.children current = search.children current) →
      (∀ other, other ≠ current → search'.children other = search.children other) →
      DfsTurn p cfg generator search search' current stack 0 (navigate search' current 0 stack)
  | next (idx : Nat) : current.depth < cfg.maxDepth → search' = search →
      DfsTurn p cfg generator search search' current stack (idx + 1)
        (navigate search current (idx + 1) stack)

variable {solution : S}

theorem dfs_found (h : Faultless p cfg generator checker) (E : Expansion σ S ε R η)
    (search : Search σ S R η) {current : ThoughtNode σ R} (idx : Nat)
    (stack : List (ThoughtNode σ R × Nat))
    (hfound : checker current.state = some solution) :
    (dfsSearchStrategy p cfg).turn E (search, (current, idx) :: stack) =
      .inr ({ search with solutions := search.solutions ++ [solution] }, .ok (some solution)) := by
  unfold Strategy.turn
  simp only [dfsSearchStrategy, dfsInspect, h.atNode_some search hfound]
  rfl

/-- **A node on top of the stack** that is no solution. -/
theorem dfs_turn (h : Faultless p cfg generator checker) (schedule : Schedule σ R)
    {search : Search σ S R η} (halive : search.Alive) {current : ThoughtNode σ R} {idx : Nat}
    (stack : List (ThoughtNode σ R × Nat)) (hnone : checker current.state = none)
    (htree : search.children current = [] ∨ IsFamily generator current (search.children current))
    (hopened : 0 < idx → current.depth < cfg.maxDepth) :
    ∃ search' stack', (dfsSearchStrategy p cfg).turn (expandNode p cfg schedule)
        (search, (current, idx) :: stack) = .inl (search', stack') ∧ search'.Alive ∧
      DfsTurn p cfg generator search search' current stack idx stack' := by
  unfold Strategy.turn
  simp only [dfsSearchStrategy, dfsInspect, h.atNode_none search hnone]
  cases idx with
  | succ idx =>
      have hdepth := hopened (Nat.succ_pos idx)
      refine ⟨search, _, ?_, halive, .next idx hdepth rfl⟩
      simp [Action.perform, not_le.mpr hdepth]
  | zero =>
      simp only [true_and, and_true, if_true]
      split
      · next hvisited =>
          exact ⟨search, stack, rfl, halive, .repeated (isVisited_iff.mp hvisited) rfl⟩
      · have hmarked : (markVisited p search current).Alive := halive
        split
        · next hbound => exact ⟨_, stack, rfl, hmarked, .bound hbound rfl rfl⟩
        · next hbound =>
            rw [not_le] at hbound
            split
            · next hempty =>
                obtain ⟨expanded, children, hexpand, hexpanded⟩ :=
                  h.expandNode schedule current hmarked
                obtain ⟨pruned, hprune, halive', hvisited, hchildren⟩ :=
                  h.applyPruning hexpanded.alive hexpanded.family.score
                obtain ⟨attached, hfamily, hattached⟩ := hexpanded.attached
                refine ⟨pruned, _, ?_, halive', .expanded hbound ?_ ?_
                  (.inl hempty) ?_⟩
                · simp only [Action.perform, hexpand, hprune, keep]
                · rw [hvisited, hexpanded.visited]
                  rfl
                · rw [hchildren, hattached, if_pos rfl, hempty, List.nil_append]
                  exact hfamily
                · intro other hother
                  rw [hchildren, hattached, if_neg hother]
                  rfl
            · next hempty =>
                have hfamily := htree.resolve_left hempty
                exact ⟨_, _, rfl, hmarked, .expanded hbound rfl hfamily (.inr rfl)
                  fun _ _ => rfl⟩

/-- The states that wait in an entry of the stack. -/
def PendingIn (search : Search σ S R η) : ThoughtNode σ R × Nat → σ → Prop
  | (node, 0), state => node.state = state
  | (node, idx + 1), state => ∃ child ∈ (search.children node).drop (idx + 1), child.state = state

/-- The states that wait in the stack. -/
def PendingOn (search : Search σ S R η) (stack : List (ThoughtNode σ R × Nat)) (state : σ) : Prop :=
  ∃ entry ∈ stack, PendingIn search entry state

/-- **The invariant of depth-first search.** -/
structure DfsInvariant (p : Problem σ S ε R η) (cfg : ToTConfig R)
    (generator : σ → List (σ × String)) (checker : σ → Option S) (start : σ)
    (search : Search σ S R η) (stack : List (ThoughtNode σ R × Nat)) : Prop where
  alive : search.Alive
  tree : ∀ node, search.children node = [] ∨ IsFamily generator node (search.children node)
  walk : ∀ entry ∈ stack, BoundedSearch.Walk (LeadsTo generator) entry.1.depth start entry.1.state
  bounded : ∀ entry ∈ stack, entry.1.depth ≤ cfg.maxDepth
  opened : ∀ entry ∈ stack, 0 < entry.2 → entry.1.depth < cfg.maxDepth
  explores : Explores p cfg generator checker start search (PendingOn search stack)

omit [DecidableEq σ] [DecidableEq η] in
theorem dfsInvariant_start [One R] (initialState : σ) (initialThought : String) :
    DfsInvariant p cfg generator checker initialState Search.reset
      [(rootNode initialState initialThought, 0)] := by
  constructor
  · intro path hdead
    cases hdead
  · exact fun _ => .inl rfl
  · simp [rootNode]
  · simp [rootNode]
  · simp
  · constructor
    · exact .inr ⟨_, List.mem_singleton.mpr rfl, rfl⟩
    · intro state hmarked
      cases hmarked

omit [LinearOrder R] [Zero R] [DecidableEq σ] [DecidableEq η] in
theorem mem_navigate {search : Search σ S R η} {current : ThoughtNode σ R} {idx : Nat}
    {stack : List (ThoughtNode σ R × Nat)} {entry : ThoughtNode σ R × Nat}
    (h : entry ∈ navigate search current idx stack) :
    (∃ child ∈ search.children current, entry = (child, 0)) ∨ entry = (current, idx + 1) ∨
      entry ∈ stack := by
  unfold navigate at h
  cases hchild : (search.children current)[idx]? with
  | none =>
      rw [hchild] at h
      exact .inr (.inr h)
  | some child =>
      simp only [hchild, List.mem_cons] at h
      rcases h with rfl | h
      · exact .inl ⟨child, List.mem_of_getElem? hchild, rfl⟩
      · exact .inr h

omit [LinearOrder R] [Zero R] [DecidableEq σ] [DecidableEq η] in
/-- **No child is lost** by a step down. -/
theorem pendingOn_navigate {search : Search σ S R η} {current child : ThoughtNode σ R} {idx : Nat}
    (stack : List (ThoughtNode σ R × Nat)) (h : child ∈ (search.children current).drop idx) :
    PendingOn search (navigate search current idx stack) child.state := by
  have hlt : idx < (search.children current).length := by
    by_contra hle
    rw [List.drop_eq_nil_iff.mpr (not_lt.mp hle)] at h
    cases h
  unfold navigate
  rw [List.getElem?_eq_getElem hlt]
  rw [List.drop_eq_getElem_cons hlt] at h
  rcases List.mem_cons.mp h with rfl | hrest
  · exact ⟨_, List.mem_cons_self, rfl⟩
  · exact ⟨_, List.mem_cons_of_mem _ List.mem_cons_self, child, hrest, rfl⟩

omit [LinearOrder R] [Zero R] [DecidableEq σ] [DecidableEq η] in
theorem subset_navigate (search : Search σ S R η) (current : ThoughtNode σ R) (idx : Nat)
    (stack : List (ThoughtNode σ R × Nat)) : stack ⊆ navigate search current idx stack := by
  unfold navigate
  cases (search.children current)[idx]? with
  | none => exact List.Subset.refl stack
  | some child => exact List.subset_cons_of_subset _ (List.subset_cons_self _ _)

section Step

variable {start : σ} {search search' : Search σ S R η} {current : ThoughtNode σ R} {idx : Nat}
  {stack stack' : List (ThoughtNode σ R × Nat)}

omit [DecidableEq σ] [DecidableEq η] in
theorem DfsInvariant.rest
    (h : DfsInvariant p cfg generator checker start search ((current, idx) :: stack)) :
    (∀ entry ∈ stack, BoundedSearch.Walk (LeadsTo generator) entry.1.depth start entry.1.state) ∧
      (∀ entry ∈ stack, entry.1.depth ≤ cfg.maxDepth) ∧
      ∀ entry ∈ stack, 0 < entry.2 → entry.1.depth < cfg.maxDepth :=
  ⟨fun entry hentry => h.walk entry (List.mem_cons_of_mem _ hentry),
    fun entry hentry => h.bounded entry (List.mem_cons_of_mem _ hentry),
    fun entry hentry => h.opened entry (List.mem_cons_of_mem _ hentry)⟩

omit [DecidableEq σ] [DecidableEq η] in
/-- The entries after a step down are on ways from the start. -/
theorem DfsInvariant.entries_navigate
    (h : DfsInvariant p cfg generator checker start search ((current, idx) :: stack))
    (hdepth : current.depth < cfg.maxDepth)
    (hfamily : search'.children current = [] ∨
      IsFamily generator current (search'.children current)) :
    ∀ entry ∈ navigate search' current idx stack,
      BoundedSearch.Walk (LeadsTo generator) entry.1.depth start entry.1.state ∧
        entry.1.depth ≤ cfg.maxDepth ∧ (0 < entry.2 → entry.1.depth < cfg.maxDepth) := by
  have hwalk : BoundedSearch.Walk (LeadsTo generator) current.depth start current.state :=
    h.walk _ List.mem_cons_self
  obtain ⟨hwalks, hdepths, hopened⟩ := h.rest
  intro entry hentry
  rcases mem_navigate hentry with ⟨child, hchild, rfl⟩ | rfl | hold
  · rcases hfamily with hempty | hfamily
    · rw [hempty] at hchild
      cases hchild
    · have hlevel := hfamily.depth child hchild
      refine ⟨?_, ?_, fun hpos => absurd hpos (Nat.lt_irrefl 0)⟩
      · rw [hlevel]
        exact hwalk.snoc (hfamily.leads hchild)
      · simp only [hlevel]
        omega
  · exact ⟨hwalk, hdepth.le, fun _ => hdepth⟩
  · exact ⟨hwalks entry hold, hdepths entry hold, hopened entry hold⟩

omit [LinearOrder R] [Zero R] [DecidableEq σ] [DecidableEq η] in
theorem pendingIn_congr {entry : ThoughtNode σ R × Nat} {state : σ}
    (hchildren : search.children entry.1 = [] ∨
      search'.children entry.1 = search.children entry.1)
    (h : PendingIn search entry state) : PendingIn search' entry state := by
  obtain ⟨node, idx⟩ := entry
  cases idx with
  | zero => exact h
  | succ idx =>
      obtain ⟨child, hchild, hstate⟩ := h
      rcases hchildren with hempty | hsame
      · simp only [hempty, List.drop_nil] at hchild
        cases hchild
      · refine ⟨child, ?_, hstate⟩
        simp only at hsame
        rw [hsame]
        exact hchild

omit [DecidableEq η] in
/-- **A turn keeps the invariant.** -/
theorem DfsInvariant.next
    (h : DfsInvariant p cfg generator checker start search ((current, idx) :: stack))
    (hinjective : Function.Injective p.stateHash) (hnone : checker current.state = none)
    (halive : search'.Alive)
    (hturn : DfsTurn p cfg generator search search' current stack idx stack') :
    DfsInvariant p cfg generator checker start search' stack' := by
  have hwalk : BoundedSearch.Walk (LeadsTo generator) current.depth start current.state :=
    h.walk _ List.mem_cons_self
  have hbounded : current.depth ≤ cfg.maxDepth := h.bounded _ List.mem_cons_self
  obtain ⟨hwalks, hdepths, hopened⟩ := h.rest
  cases hturn with
  | repeated hmarked hsame =>
      subst hsame
      refine ⟨halive, h.tree, hwalks, hdepths, hopened, ?_⟩
      refine explores_drop h.explores ?_
      rintro state ⟨entry, hentry, hpending⟩
      rcases List.mem_cons.mp hentry with rfl | hrest
      · obtain rfl : current.state = state := hpending
        exact .inl hmarked
      · exact .inr ⟨entry, hrest, hpending⟩
  | bound hbound hvisited hchildren =>
      refine ⟨halive, ?_, hwalks, hdepths, hopened, ?_⟩
      · rw [hchildren]
        exact h.tree
      · refine explores_mark h.explores hinjective hnone hwalk hvisited ?_
          (.inl (hbounded.antisymm hbound))
        rintro state ⟨entry, hentry, hpending⟩
        rcases List.mem_cons.mp hentry with rfl | hrest
        · exact .inl (Eq.symm hpending)
        · exact .inr ⟨entry, hrest, pendingIn_congr (.inr (congrFun hchildren _)) hpending⟩
  | expanded hdepth hvisited hfamily hkept hothers =>
      have hentries := h.entries_navigate hdepth (.inr hfamily)
      refine ⟨halive, ?_, fun entry hentry => (hentries entry hentry).1,
        fun entry hentry => (hentries entry hentry).2.1,
        fun entry hentry => (hentries entry hentry).2.2, ?_⟩
      · intro node
        by_cases hnode : node = current
        · rw [hnode]
          exact .inr hfamily
        · rw [hothers node hnode]
          exact h.tree node
      · refine explores_mark h.explores hinjective hnone hwalk hvisited ?_ (.inr ?_)
        · rintro state ⟨entry, hentry, hpending⟩
          rcases List.mem_cons.mp hentry with rfl | hrest
          · exact .inl (Eq.symm hpending)
          · refine .inr ⟨entry, subset_navigate _ _ _ _ hrest, pendingIn_congr ?_ hpending⟩
            by_cases hsame : entry.1 = current
            · rw [hsame]
              exact hkept
            · exact .inr (hothers _ hsame)
        · intro next hnext
          obtain ⟨child, hchild, rfl⟩ := hfamily.complete next hnext
          exact pendingOn_navigate stack (by simpa using hchild)
  | next idx hdepth hsame =>
      subst hsame
      have hentries := h.entries_navigate hdepth (h.tree current)
      refine ⟨halive, h.tree, fun entry hentry => (hentries entry hentry).1,
        fun entry hentry => (hentries entry hentry).2.1,
        fun entry hentry => (hentries entry hentry).2.2, ?_⟩
      refine explores_drop h.explores ?_
      rintro state ⟨entry, hentry, hpending⟩
      rcases List.mem_cons.mp hentry with rfl | hrest
      · obtain ⟨child, hchild, rfl⟩ := hpending
        exact .inr (pendingOn_navigate stack hchild)
      · exact .inr ⟨entry, subset_navigate _ _ _ _ hrest, hpending⟩

end Step

theorem dfs_findsOrBlocked [One R] (h : Faultless p cfg generator checker)
    {outcome : Result σ S ε R η (Option S)}
    (hsearch : Searches p cfg schedule .dfs (rootNode initialState initialThought) outcome) :
    FindsOrBlocked cfg generator checker initialState outcome := by
  refine WhileLoop.Returns.of_invariant
    (I := fun s => DfsInvariant p cfg generator checker initialState s.1 s.2)
    ?_ ?_ hsearch (dfsInvariant_start initialState initialThought)
  · rintro ⟨search, stack⟩ t hinv hturn
    cases stack with
    | nil => cases hturn
    | cons entry stack =>
        obtain ⟨current, idx⟩ := entry
        cases hchecker : checker current.state with
        | some solution =>
            exact absurd (hturn.symm.trans (dfs_found h _ search idx stack hchecker)) nofun
        | none =>
            obtain ⟨search', stack', heq, halive, hstep⟩ :=
              dfs_turn h schedule hinv.alive stack hchecker (hinv.tree current)
                (hinv.opened _ List.mem_cons_self)
            cases hturn.symm.trans heq
            exact hinv.next h.injective hchecker halive hstep
  · rintro ⟨search, stack⟩ result hinv hturn
    cases stack with
    | nil =>
        right
        intro k hk state hwalk haccepted
        exact hinv.explores.blocked (by simp [PendingOn]) hwalk hk haccepted
    | cons entry stack =>
        obtain ⟨current, idx⟩ := entry
        cases hchecker : checker current.state with
        | some solution =>
            cases hturn.symm.trans (dfs_found h _ search idx stack hchecker)
            exact .inl ⟨solution, rfl⟩
        | none =>
            obtain ⟨search', stack', heq, _⟩ :=
              dfs_turn h schedule hinv.alive stack hchecker (hinv.tree current)
                (hinv.opened _ List.mem_cons_self)
            exact absurd (hturn.symm.trans heq) nofun

/-! ## What breadth-first search finds -/

omit [LinearOrder R] [Zero R] [DecidableEq σ] [DecidableEq η] in
theorem finds_of_findsOrBlocked {start : σ} {outcome outcome' : Result σ S ε R η (Option S)} (hbfs : FindsShallowest cfg generator checker start outcome)
    (hsome : outcome.2 = .ok (some solution))
    (hfree : ¬Blocked (LeadsTo generator) (Accepted checker) cfg.maxDepth start)
    (hother : FindsOrBlocked cfg generator checker start outcome') :
    ∃ found, outcome'.2 = .ok (some found) := by
  obtain ⟨found, hok, hiff, _⟩ := hbfs
  rw [hok] at hsome
  cases hsome
  obtain ⟨k, hk, state, hwalk, haccepted⟩ := hiff.mp rfl
  rcases hother with hfound | hblocked
  · exact hfound
  · refine absurd (hblocked k hk state hwalk ?_) hfree
    intro hnone
    rw [hnone] at haccepted
    cases haccepted

/-- **Depth-first and best-first search** find a solution where breadth-first search does, unless
the way to every one is blocked. -/
theorem finds_of_not_blocked [One R] (h : Faultless p cfg generator checker)
    (schedule : Schedule σ R) (initialState : σ) (initialThought : String)
    (hfree : ¬Blocked (LeadsTo generator) (Accepted checker) cfg.maxDepth initialState)
    {outcome : Result σ S ε R η (Option S)} {solution : S}
    (hsearch : Searches p cfg schedule .bfs (rootNode initialState initialThought) outcome)
    (hsome : outcome.2 = .ok (some solution)) (schedule' : Schedule σ R)
    {strategyType : SearchStrategyType}
    (hstrategy : strategyType = .dfs ∨ strategyType = .bestFirst) :
    ∃ outcome', Searches p cfg schedule' strategyType (rootNode initialState initialThought)
      outcome' ∧ ∃ found, outcome'.2 = .ok (some found) := by
  obtain ⟨outcome', hsearch'⟩ := exists_searches p schedule' strategyType
    (rootNode initialState initialThought)
  refine ⟨outcome', hsearch',
    finds_of_findsOrBlocked (findsShallowest_of_searches h hsearch) hsome hfree ?_⟩
  rcases hstrategy with rfl | rfl
  · exact dfs_findsOrBlocked h hsearch'
  · exact bestFirst_findsOrBlocked h hsearch'

/-- The way to the only goal is a step long. -/
theorem finds_of_not_blocked_oneStep :
    ∃ outcome', Searches (graphProblem oneStep detourScore 1) (graphConfig 1 false)
        Schedule.inOrder .dfs (rootNode 0 "start") outcome' ∧
      ∃ found, outcome'.2 = .ok (some found) := by
  obtain ⟨outcome, hsearch, hsome⟩ : ∃ outcome, Searches (graphProblem oneStep detourScore 1)
      (graphConfig 1 false) Schedule.inOrder .bfs (rootNode 0 "start") outcome ∧
        outcome.2 = .ok (some 1) := searches_of_run _ _ _ .bfs _ 10 rfl
  refine finds_of_not_blocked (graph_faultless oneStep detourScore 1 1 false) Schedule.inOrder 0
    "start" ?_ hsearch hsome Schedule.inOrder (Or.inl rfl)
  rintro ⟨s, t, j, i, hbound, hreach, hj, _⟩
  have hzero : j = 0 := Nat.lt_one_iff.mp hj
  subst hzero
  obtain rfl : 0 = s := hreach
  obtain ⟨u, hstep, rfl⟩ := hbound
  unfold LeadsTo at hstep
  exact absurd hstep (by decide)

/-- The state behind both ways is met at the bound first, and the goal behind it is missed. -/
theorem finds_counterexample :
    Faultless (graphProblem detour detourScore 5) (graphConfig 3 false) detour
        (fun state => if 5 ≤ state then some state else none) ∧
      (∃ outcome, Searches (graphProblem detour detourScore 5) (graphConfig 3 false)
        Schedule.inOrder .bfs (rootNode 0 "start") outcome ∧ outcome.2 = .ok (some 5)) ∧
      ∀ strategyType, strategyType = .dfs ∨ strategyType = .bestFirst →
        ∀ outcome, Searches (graphProblem detour detourScore 5) (graphConfig 3 false)
          Schedule.inOrder strategyType (rootNode 0 "start") outcome → outcome.2 = .ok none := by
  refine ⟨graph_faultless detour detourScore 5 3 false, ?_, ?_⟩
  · exact searches_of_run _ _ _ .bfs _ 30 rfl
  · rintro strategyType hstrategy outcome hsearch
    have hrun : ∃ outcome', Searches (graphProblem detour detourScore 5) (graphConfig 3 false)
        Schedule.inOrder strategyType (rootNode 0 "start") outcome' ∧ outcome'.2 = .ok none := by
      rcases hstrategy with rfl | rfl
      · exact searches_of_run _ _ _ .dfs _ 30 rfl
      · exact searches_of_run _ _ _ .bestFirst _ 30 rfl
    obtain ⟨outcome', hsearch', hnone⟩ := hrun
    rw [WhileLoop.Returns.unique hsearch hsearch']
    exact hnone

end SkyClaw.Reasoning
