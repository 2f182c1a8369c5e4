import SkyClaw.Lib.JsonText
import SkyClaw.Lib.Runs
import SkyClaw.Lib.SlotTable

/-!
# The broadcast to the clients of the interface

`UIBroadcastServer.broadcast` goes through the set of clients and awaits a send for each of them, while
the handlers of connections add to the set and discard from it.  `broadcast_delivers` says under which
disturbances each client gets the message; `noRaise_iff` says when the iterator of the set raises.
-/

namespace SkyClaw.Comms.UiBroadcast

open JsonText (FloatText dumps)

variable {Client : Type} [DecidableEq Client]

inductive Phase (Client : Type)
  /-- the call has not begun -/
  | ready
  /-- `ws.send` is awaited; the iterator is before a slot, and was made for so many clients -/
  | sending (slot used : Nat) (ws : Client)
  | done
  /-- `RuntimeError: Set changed size during iteration` -/
  | raised

structure State (Client : Type) where
  clients : SlotTable Client
  phase : Phase Client
  disconnected : List Client
  /-- what the sends have delivered -/
  received : List (Client × String)
  /-- the clients that the iterator has given -/
  given : List Client
  /-- the clients of the start that have not left since -/
  stayed : List Client

inductive SendOutcome
  | delivered
  | connectionClosed
  /-- another exception -/
  | failed
deriving DecidableEq

inductive Action (Client : Type)
  | broadcast
  /-- the send that is awaited comes to an end -/
  | sent (outcome : SendOutcome)
  /-- a handler adds its client, in a free slot -/
  | join (client : Client) (slot : Nat)
  /-- a client is discarded -/
  | leave (client : Client)
  /-- the set is put into another table -/
  | rebuild (clients : SlotTable Client)

/-- On to the next client, or to `self._clients -= disconnected`. -/
def next (s : State Client) (slot used : Nat) : State Client :=
  if s.clients.size ≠ used then { s with phase := .raised }
  else
    match s.clients.scan slot with
    | some (i, ws) => { s with phase := .sending (i + 1) used ws, given := s.given ++ [ws] }
    | none => { s with phase := .done, clients := s.clients.removeAll s.disconnected }

/-- The result of a send is noted. -/
def noted (payload : String) (s : State Client) (ws : Client) : SendOutcome → State Client
  | .delivered => { s with received := s.received ++ [(ws, payload)] }
  | .connectionClosed => { s with disconnected := s.disconnected ++ [ws] }
  | .failed => { s with disconnected := s.disconnected ++ [ws] }

def step (F : FloatText) (message : Json) (s : State Client) : Action Client → Option (State Client)
  | .broadcast =>
      match s.phase with
      | .ready =>
          if s.clients.size = 0 then some { s with phase := .done, stayed := s.clients.items }
          else some (next { s with stayed := s.clients.items } 0 s.clients.size)
      | _ => none
  | .sent outcome =>
      match s.phase with
      | .sending slot used ws => some (next (noted (dumps F message) s ws outcome) slot used)
      | _ => none
  | .join client slot =>
      (s.clients.insertAt client slot).map fun clients => { s with clients := clients }
  | .leave client =>
      some { s with clients := s.clients.discard client, stayed := s.stayed.filter (· ≠ client) }
  | .rebuild clients =>
      if clients.items.Perm s.clients.items then some { s with clients := clients } else none

def start (clients : SlotTable Client) : State Client := ⟨clients, .ready, [], [], [], []⟩

/-! ## What it is for -/

/-- **No exception; at the end each client that has stayed and has not failed has the message once, and
the clients that have failed are removed, and no others.** -/
structure Delivers (F : FloatText) (message : Json) (s t : State Client) : Prop where
  noRaise : t.phase ≠ .raised
  once : s.phase ≠ .done → t.phase = .done → ∀ client ∈ t.stayed, client ∉ t.disconnected →
    t.received.count (client, dumps F message) = 1
  removed : s.phase ≠ .done → t.phase = .done →
    ∀ client, client ∈ t.clients ↔ client ∈ s.clients ∧ client ∉ t.disconnected

/-- When a send comes to an end, there are as many clients as at the start. -/
def SizeKept (s : State Client) (a : Action Client) (_ : State Client) : Prop :=
  ∀ outcome slot used ws, a = .sent outcome → s.phase = .sending slot used ws →
    s.clients.size = used

/-- A rebuild leaves the clients that have stayed on their side of the iterator. -/
def SidesKept (s : State Client) (a : Action Client) (_ : State Client) : Prop :=
  ∀ clients slot used ws, a = .rebuild clients → s.phase = .sending slot used ws →
    ∀ client ∈ s.stayed, ∀ i j, s.clients.At i client → clients.At j client → (i < slot ↔ j < slot)

def Undisturbed (s : State Client) (a : Action Client) (t : State Client) : Prop :=
  SizeKept s a t ∧ SidesKept s a t

/-! ## The loop -/

section Loop

variable {F : FloatText} {message : Json} {s t : State Client} {a : Action Client}

/-- The clients in front of the slot have been given once and the others not yet. -/
structure Between (s : State Client) (slot : Nat) : Prop where
  stayed : ∀ client ∈ s.stayed, client ∈ s.clients
  given : ∀ client ∈ s.stayed, ∀ i, s.clients.At i client →
    s.given.count client = if i < slot then 1 else 0

/-- Each send of a client that has been given is noted. -/
def Noted (payload : String) (s : State Client) (awaited : List Client) : Prop :=
  ∀ client, s.given.count client =
    s.received.count (client, payload) + s.disconnected.count client + awaited.count client

/-- What holds between the actions. -/
def Inv (payload : String) (s : State Client) : Prop :=
  match s.phase with
  | .ready => s.disconnected = [] ∧ s.received = [] ∧ s.given = []
  | .sending slot _ ws => Between s slot ∧ Noted payload s [ws]
  | .done => True
  | .raised => True

omit [DecidableEq Client] in
theorem noted_clients (payload : String) (s : State Client) (ws : Client) (outcome : SendOutcome) :
    (noted payload s ws outcome).clients = s.clients ∧
      (noted payload s ws outcome).stayed = s.stayed ∧
      (noted payload s ws outcome).given = s.given := by
  cases outcome with
  | delivered | connectionClosed | failed => exact ⟨rfl, rfl, rfl⟩

theorem noted_spec {payload : String} {ws : Client} (h : Noted payload s [ws])
    (outcome : SendOutcome) : Noted payload (noted payload s ws outcome) [] := by
  intro client
  have hcount := h client
  cases outcome with
  | delivered =>
      have hsend : [(ws, payload)].count (client, payload) = [ws].count client := by
        simp [List.count_singleton]
      simp only [noted, List.count_append, List.count_nil, hsend]
      omega
  | connectionClosed | failed =>
      simp only [noted, List.count_append, List.count_nil]
      omega

open SlotTable

/-- **One turn of the loop**: the next client is given, or all of them have been. -/
theorem next_spec {slot used : Nat} (hbetween : Between s slot)
    (hnoted : Noted (dumps F message) s []) (hsize : s.clients.size = used) :
    Inv (dumps F message) (next s slot used) ∧
      (next s slot used).phase ≠ .raised ∧
      ((next s slot used).phase = .done →
        (∀ client ∈ (next s slot used).stayed, client ∉ (next s slot used).disconnected →
          (next s slot used).received.count (client, dumps F message) = 1) ∧
        ∀ client, client ∈ (next s slot used).clients ↔
          client ∈ s.clients ∧ client ∉ (next s slot used).disconnected) := by
  unfold next
  rw [if_neg (not_not.mpr hsize)]
  cases hscan : s.clients.scan slot with
  | some found =>
      obtain ⟨i, ws⟩ := found
      obtain ⟨hle, hat, hnext⟩ := scan_eq_some hscan
      refine ⟨⟨⟨hbetween.stayed, fun client hclient j hj => ?_⟩, fun client => ?_⟩, ?_, ?_⟩
      · have hcount := hbetween.given client hclient j hj
        simp only [List.count_append, List.count_singleton]
        by_cases hsame : ws = client
        · -- The client that is given now.
          subst hsame
          obtain rfl := s.clients.single i j ws hat hj
          rw [hcount, if_neg (Nat.not_lt.mpr hle), if_pos (Nat.lt_succ_self i)]
          simp
        · rw [hcount]
          have hne : j ≠ i := by
            rintro rfl
            exact hsame (Option.some.inj (Option.some.inj (hat.symm.trans hj)))
          have hside : j < slot ↔ j < i + 1 := by
            constructor
            · intro hlt
              omega
            · intro hlt
              by_contra hnot
              have := hnext j client hj (Nat.not_lt.mp hnot)
              omega
          simp [hside, hsame]
      · have hcount := hnoted client
        simp only [List.count_append, List.count_nil] at hcount ⊢
        omega
      · exact nofun
      · exact nofun
  | none =>
      refine ⟨trivial, ?_, ?_⟩
      · exact nofun
      refine fun _ => ⟨fun client hclient hnot => ?_, fun client => ?_⟩
      · obtain ⟨i, hi⟩ := hbetween.stayed client hclient
        have hgiven := hbetween.given client hclient i hi
        rw [if_pos (scan_eq_none hscan hi)] at hgiven
        have hcount := hnoted client
        have hzero : s.disconnected.count client = 0 := List.count_eq_zero.mpr hnot
        rw [hgiven, hzero, List.count_nil] at hcount
        exact hcount.symm
      · exact mem_removeAll_iff

theorem delivers_of_phase (h : t.phase = s.phase) (hraised : s.phase ≠ .raised) :
    Delivers F message s t where
  noRaise := h ▸ hraised
  once hs ht := absurd (h ▸ ht) hs
  removed hs ht := absurd (h ▸ ht) hs

theorem inv_of_phase {payload : String} (h : Inv payload s) (hphase : t.phase = s.phase)
    (hnoted : t.disconnected = s.disconnected ∧ t.received = s.received ∧ t.given = s.given)
    (hbetween : ∀ slot used ws, s.phase = .sending slot used ws → Between s slot → Between t slot) :
    Inv payload t := by
  obtain ⟨hdisconnected, hreceived, hgiven⟩ := hnoted
  unfold Inv at h ⊢
  rw [hphase]
  cases hs : s.phase with
  | ready =>
      rw [hs] at h
      dsimp only at h ⊢
      rw [hdisconnected, hreceived, hgiven]
      exact h
  | sending slot used ws =>
      rw [hs] at h
      refine ⟨hbetween slot used ws hs h.1, fun client => ?_⟩
      rw [hdisconnected, hreceived, hgiven]
      exact h.2 client
  | done | raised => trivial

/-- **Every step** that is undisturbed delivers and goes on. -/
theorem step_spec (h : Inv (dumps F message) s) (hraised : s.phase ≠ .raised)
    (hstep : step F message s a = some t) (hundisturbed : Undisturbed s a t) :
    Inv (dumps F message) t ∧ Delivers F message s t := by
  obtain ⟨hsize, hsides⟩ := hundisturbed
  cases a with
  | broadcast =>
      simp only [step] at hstep
      split at hstep
      · next hphase =>
          unfold Inv at h
          rw [hphase] at h
          obtain ⟨hdisconnected, hreceived, hgiven⟩ := h
          split_ifs at hstep with hempty
          · cases hstep
            refine ⟨trivial, ?_, fun _ _ client hclient => ?_, fun _ _ client => ?_⟩
            · exact nofun
            · have hpos := size_pos_of_mem (mem_items_iff.mp hclient)
              omega
            · rw [hdisconnected]
              simp
          · cases hstep
            have hbetween : Between { s with stayed := s.clients.items } 0 := by
              refine ⟨fun client hclient => mem_items_iff.mp hclient, fun client _ i _ => ?_⟩
              simp [hgiven]
            have hnoted : Noted (dumps F message) { s with stayed := s.clients.items } [] := by
              intro client
              simp [hgiven, hreceived, hdisconnected]
            obtain ⟨hinv, hno, hend⟩ := next_spec hbetween hnoted rfl
            exact ⟨hinv, hno, fun _ hdone => (hend hdone).1, fun _ hdone => (hend hdone).2⟩
      · cases hstep
  | sent outcome =>
      simp only [step] at hstep
      split at hstep
      · next slot used ws hphase =>
          cases hstep
          unfold Inv at h
          rw [hphase] at h
          obtain ⟨hclients, hstayed, hgiven⟩ := noted_clients (dumps F message) s ws outcome
          have hbetween : Between (noted (dumps F message) s ws outcome) slot := by
            refine ⟨?_, ?_⟩
            · rw [hstayed, hclients]
              exact h.1.stayed
            · rw [hstayed, hclients, hgiven]
              exact h.1.given
          have hkept : (noted (dumps F message) s ws outcome).clients.size = used := by
            rw [hclients]
            exact hsize outcome slot used ws rfl hphase
          obtain ⟨hinv, hno, hend⟩ := next_spec hbetween (noted_spec h.2 outcome) hkept
          refine ⟨hinv, hno, fun _ hdone => (hend hdone).1, fun _ hdone client => ?_⟩
          rw [← hclients]
          exact (hend hdone).2 client
      · cases hstep
  | join client slot =>
      obtain ⟨clients, hinsert, rfl⟩ := Option.map_eq_some_iff.mp hstep
      refine ⟨inv_of_phase h rfl ⟨rfl, rfl, rfl⟩ fun place used ws _ hbetween => ?_,
        delivers_of_phase rfl hraised⟩
      have hold : ∀ other, other ∈ s.clients → ∀ i, clients.At i other → s.clients.At i other := by
        intro other hother i hi
        rcases (at_insertAt_iff hinsert).mp hi with ⟨rfl, rfl⟩ | hi
        · exact absurd hother (not_mem_of_insertAt hinsert)
        · exact hi
      refine ⟨fun other hother => ?_, fun other hother i hi => ?_⟩
      · obtain ⟨i, hi⟩ := hbetween.stayed other hother
        exact ⟨i, (at_insertAt_iff hinsert).mpr (.inr hi)⟩
      · exact hbetween.given other hother i (hold other (hbetween.stayed other hother) i hi)
  | leave client =>
      cases hstep
      refine ⟨inv_of_phase h rfl ⟨rfl, rfl, rfl⟩ fun place used ws _ hbetween => ?_,
        delivers_of_phase rfl hraised⟩
      refine ⟨fun other hother => ?_, fun other hother i hi => ?_⟩
      · obtain ⟨hmem, hne⟩ := List.mem_filter.mp hother
        exact mem_removeAll_iff.mpr
          ⟨hbetween.stayed other hmem, by simpa using hne⟩
      · exact hbetween.given other (List.mem_filter.mp hother).1 i (at_removeAll_iff.mp hi).1
  | rebuild clients =>
      simp only [step] at hstep
      split_ifs at hstep with hperm
      cases hstep
      refine ⟨inv_of_phase h rfl ⟨rfl, rfl, rfl⟩ fun place used ws hphase hbetween => ?_,
        delivers_of_phase rfl hraised⟩
      refine ⟨fun other hother => ?_, fun other hother j hj => ?_⟩
      · exact mem_items_iff.mp
          (hperm.mem_iff.mpr (mem_items_iff.mpr (hbetween.stayed other hother)))
      · obtain ⟨i, hi⟩ := hbetween.stayed other hother
        rw [hbetween.given other hother i hi]
        simp only [hsides clients place used ws rfl hphase other hother i j hi hj]

end Loop

/-! ## Runs -/

theorem phase_next {s : State Client} {slot used : Nat} :
    (next s slot used).phase ≠ .raised ↔ s.clients.size = used := by
  unfold next
  split_ifs with hsize
  · exact iff_of_false (fun h => h rfl) hsize
  · refine iff_of_true ?_ (not_not.mp hsize)
    split
    · exact nofun
    · exact nofun

/-- **The call does not raise** exactly if the number of clients is kept at the end of each send. -/
theorem noRaise_iff (F : FloatText) (message : Json) (clients : SlotTable Client)
    (schedule : List (Action Client)) :
    Runs.Always (step F message) (fun _ _ t => t.phase ≠ .raised) (start clients) schedule ↔
      Runs.Always (step F message) SizeKept (start clients) schedule := by
  have hiff : ∀ (s : State Client) a t, s.phase ≠ .raised → step F message s a = some t →
      (t.phase ≠ .raised ↔ SizeKept s a t) := by
    intro s a t hs hstep
    have hother : (∀ outcome, a ≠ .sent outcome) → t.phase ≠ .raised →
        (t.phase ≠ .raised ↔ SizeKept s a t) := fun hne ht =>
      iff_of_true ht fun outcome _ _ _ heq => absurd heq (hne outcome)
    cases a with
    | broadcast =>
        refine hother (fun outcome heq => by cases heq) ?_
        simp only [step] at hstep
        split at hstep
        · split_ifs at hstep
          · cases hstep
            exact fun h => by cases h
          · cases hstep
            exact phase_next.mpr rfl
        · cases hstep
    | sent outcome =>
        simp only [step] at hstep
        split at hstep
        · next slot used ws hphase =>
            cases hstep
            rw [phase_next, (noted_clients _ s ws outcome).1]
            constructor
            · intro hsize outcome' slot' used' ws' _ hphase'
              obtain ⟨-, rfl, -⟩ := Phase.sending.inj (hphase.symm.trans hphase')
              exact hsize
            · exact fun hkept => hkept outcome slot used ws rfl hphase
        · cases hstep
    | join client slot =>
        obtain ⟨clients, -, rfl⟩ := Option.map_eq_some_iff.mp hstep
        exact hother (fun outcome heq => by cases heq) hs
    | leave client =>
        cases hstep
        exact hother (fun outcome heq => by cases heq) hs
    | rebuild clients =>
        simp only [step] at hstep
        split_ifs at hstep
        cases hstep
        exact hother (fun outcome heq => by cases heq) hs
  exact Runs.always_iff_of_guarded (I := fun s : State Client => s.phase ≠ .raised)
    (fun s a t hs hstep hkept => (hiff s a t hs hstep).mpr hkept) hiff (fun h => by cases h) schedule

/-- **In every run** whose handlers do not disturb the iterator, the broadcast delivers. -/
theorem broadcast_delivers (F : FloatText) (message : Json) (clients : SlotTable Client)
    (schedule : List (Action Client))
    (h : Runs.Always (step F message) Undisturbed (start clients) schedule) :
    Runs.Always (step F message) (fun s _ t => Delivers F message s t) (start clients) schedule := by
  have hstart : Inv (dumps F message) (start clients) ∧ (start clients).phase ≠ .raised :=
    ⟨⟨rfl, rfl, rfl⟩, fun h => by cases h⟩
  have hall := Runs.throughout_of_guarded
    (I := fun s : State Client => Inv (dumps F message) s ∧ s.phase ≠ .raised) (C := Undisturbed)
    (fun s a t hs hstep hundisturbed => by
      obtain ⟨hinv, hdelivers⟩ := step_spec hs.1 hs.2 hstep hundisturbed
      exact ⟨hinv, hdelivers.noRaise⟩) hstart h
  exact Runs.Always.of_throughout
    (fun s a t hs hstep hundisturbed => (step_spec hs.1 hs.2 hstep hundisturbed).2) hall h

omit [DecidableEq Client] in
theorem undisturbed_of_ne {s t : State Client} {a : Action Client} (hsent : ∀ outcome, a ≠ .sent outcome)
    (hrebuild : ∀ clients, a ≠ .rebuild clients) : Undisturbed s a t :=
  ⟨fun outcome _ _ _ heq _ => absurd heq (hsent outcome),
    fun clients _ _ _ heq _ => absurd heq (hrebuild clients)⟩

/-- Two clients; a third one comes and goes between two sends, and the second send fails. -/
def visit : List (Action Nat) :=
  [.join 0 0, .join 1 1, .broadcast, .join 2 2, .leave 2, .sent .delivered, .sent .failed]

theorem broadcast_delivers_visit : Runs.Always (step .integral (.str "hola"))
    (fun s _ t => Delivers .integral (.str "hola") s t) (start (.empty 8)) visit := by
  have hsent : ∀ {s t : State Nat} {outcome : SendOutcome},
      (∀ slot used ws, s.phase = .sending slot used ws → s.clients.size = used) →
        Undisturbed s (.sent outcome) t := fun hsize =>
    ⟨fun _ slot used ws _ hphase => hsize slot used ws hphase, fun _ _ _ _ heq _ => by cases heq⟩
  refine broadcast_delivers _ _ _ _ ?_
  have hjoin : ∀ {s t : State Nat} {c i : Nat}, Undisturbed s (.join c i) t :=
    undisturbed_of_ne (fun _ h => by cases h) fun _ h => by cases h
  have hbroadcast : ∀ {s t : State Nat}, Undisturbed s .broadcast t :=
    undisturbed_of_ne (fun _ h => by cases h) fun _ h => by cases h
  have hleave : ∀ {s t : State Nat} {c : Nat}, Undisturbed s (.leave c) t :=
    undisturbed_of_ne (fun _ h => by cases h) fun _ h => by cases h
  refine .cons rfl hjoin (.cons rfl hjoin (.cons rfl hbroadcast (.cons rfl hjoin
    (.cons rfl hleave (.cons rfl (hsent ?_) (.cons rfl (hsent ?_) trivial))))))
  · rintro slot used ws hphase
    obtain ⟨rfl, rfl, rfl⟩ := Phase.sending.inj hphase
    rfl
  · rintro slot used ws hphase
    obtain ⟨rfl, rfl, rfl⟩ := Phase.sending.inj hphase
    rfl

/-- A client joins while the message is sent to another one. -/
theorem broadcast_delivers_counterexample :
    ¬∀ schedule : List (Action Nat), Runs.Always (step .integral (.str "hola"))
      (fun s _ t => Delivers .integral (.str "hola") s t) (start (.empty 8)) schedule := by
  intro h
  obtain ⟨-, hjoined⟩ := h [.join 0 0, .broadcast, .join 1 1, .sent .delivered] _ rfl
  obtain ⟨-, hsending⟩ := hjoined _ rfl
  obtain ⟨-, hjoined⟩ := hsending _ rfl
  exact (hjoined _ rfl).1.noRaise rfl

end SkyClaw.Comms.UiBroadcast
