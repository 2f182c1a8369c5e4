import SkyClaw.Lib.KeyedTable
import SkyClaw.Lib.Runs
import SkyClaw.Security.NetworkGateway

/-!
# The resolver that pins

`SafeResolver` between the awaits of its calls: each call runs up to its `getaddrinfo`, and on when the
answer is there.  A call that has missed does not look again before it pins, so two of them may pin
different answers: `pins_iff`.
-/

namespace SkyClaw.Security.SafeResolver

open Checks
open IpAddress (Address ipAddress)
open NetworkGateway (EgressPolicy)

def maxPinnedEntries : Nat := 1024

def aiNumericHost : Nat := 4

/-- One of the infos of `getaddrinfo`. -/
structure AddrInfo where
  family : Nat
  proto : Nat
  ip : List Char
  port : Nat
deriving DecidableEq

/-- A validated address. -/
structure ResolvedAddress where
  hostname : List Char
  host : List Char
  port : Nat
  family : Nat
  proto : Nat
  flags : Nat
deriving DecidableEq

/-- `(host, port)` -/
abbrev PinKey := List Char × Nat

abbrev Pin := PinKey × List ResolvedAddress

/-- `_pinned`, the entry that is used least recently first. -/
abbrev Pins := KeyedTable (Prod.fst : Pin → PinKey)

inductive ResolveError
  /-- `OSError: DNS resolution failed for …` -/
  | resolutionFailed (host : List Char)
  /-- `ValueError` -/
  | notAnAddress (ip : List Char)
  /-- `EgressViolationError: Resolved address … is private/loopback (SSRF block)` -/
  | privateAddress (address : Address) (host : List Char)
  /-- `OSError: No valid addresses resolved for …` -/
  | noValidAddresses (host : List Char)

/-- What `getaddrinfo` answers; none is an exception. -/
abbrev Answer := Option (List AddrInfo)

section Validation

variable (policy : EgressPolicy) (host : List Char)

def isBlocked (address : Address) : Bool :=
  policy.blockPrivateIps && (address.isPrivate || address.isLoopback || address.isLinkLocal)

/-- The body of the loop over the infos. -/
def checkInfo (info : AddrInfo) : Except ResolveError ResolvedAddress := do
  let address ← orRaise (ipAddress info.ip) (.notAnAddress info.ip)
  raiseIf (isBlocked policy address) (.privateAddress address host)
  return ⟨host, info.ip, info.port, info.family, info.proto, aiNumericHost⟩

/-- `resolve`, from the answer up to the pin. -/
def validated : Answer → Except ResolveError (List ResolvedAddress)
  | none => .error (.resolutionFailed host)
  | some infos => do
      raiseIf infos.isEmpty (.resolutionFailed host)
      let result ← infos.mapM (checkInfo policy host)
      raiseIf result.isEmpty (.noValidAddresses host)
      return result

end Validation

/-- Pin a result; the oldest entry goes where there are too many. -/
def pin (pins : Pins) (entry : Pin) : Pins :=
  if maxPinnedEntries < (pins.setItem entry).rows.length then (pins.setItem entry).popFirst
  else pins.setItem entry

/-! ## Calls -/

structure State where
  pinned : Pins
  /-- the calls that wait for an answer -/
  waiting : List PinKey

inductive Action
  /-- a call begins -/
  | resolve (key : PinKey)
  /-- an answer comes in for one of the calls that wait -/
  | answer (call : Nat) (answer : Answer)
  /-- a call that waits is cancelled -/
  | cancel (call : Nat)
  | close

section

variable (policy : EgressPolicy)

/-- The state behind an action, and what a call returns in it. -/
def act (s : State) : Action → Option (State × Option Pin)
  | .resolve key =>
      match s.pinned.lookup key with
      | some entry => some ({ s with pinned := s.pinned.moveToEnd key }, some entry)
      | none => some ({ s with waiting := s.waiting ++ [key] }, none)
  | .answer call answer =>
      s.waiting[call]?.map fun key =>
        match validated policy key.1 answer with
        | .error _ => ({ s with waiting := s.waiting.eraseIdx call }, none)
        | .ok result => (⟨pin s.pinned (key, result), s.waiting.eraseIdx call⟩, some (key, result))
  | .cancel call =>
      s.waiting[call]?.map fun _ => ({ s with waiting := s.waiting.eraseIdx call }, none)
  | .close => some ({ s with pinned := .empty _ }, none)

/-- The resolver with what its calls have returned, altogether and since the entry of their key has been
there. -/
structure Observed where
  state : State
  returned : List Pin
  since : List Pin

def step (o : Observed) (a : Action) : Option Observed :=
  (act policy o.state a).map fun (state, returned) =>
    { state := state
      returned := o.returned ++ returned.toList
      since := (o.since ++ returned.toList).filter fun entry =>
        (state.pinned.lookup entry.1).isSome }

def initial : Observed := ⟨⟨.empty _, []⟩, [], []⟩

def IsPublic (address : ResolvedAddress) : Prop :=
  ∃ ip, ipAddress address.host = some ip ∧ ip.isGlobal = true

/-- **All calls have returned the same list** since the entry is there, every address is public, and the
cache is not too large. -/
structure Pinned (o : Observed) : Prop where
  same : ∀ key first second, (key, first) ∈ o.since → (key, second) ∈ o.since → first = second
  isPublic : ∀ entry ∈ o.returned, ∀ address ∈ entry.2, IsPublic address
  bounded : o.state.pinned.rows.length ≤ maxPinnedEntries

/-- The checks let the address through, but it is not public. -/
def isUnchecked (address : Address) : Bool :=
  address.isShared || !policy.blockPrivateIps && address.isPrivate

/-- A valid answer comes in for a call. -/
def Answers (s : State) (a : Action) (key : PinKey) (result : List ResolvedAddress) : Prop :=
  ∃ call answer, a = .answer call answer ∧ s.waiting[call]? = some key ∧
    validated policy key.1 answer = .ok result

/-- No valid answer differs from a pin of its key, or has an address that is not checked. -/
def AnswersAgree (o : Observed) (a : Action) (_ : Observed) : Prop :=
  ∀ key result, Answers policy o.state a key result →
    (∀ pinned, o.state.pinned.lookup key = some (key, pinned) → pinned = result) ∧
      ∀ address ∈ result, ∀ ip, ipAddress address.host = some ip → isUnchecked policy ip = false

end

/-! ## The checks -/

section Checks

variable {policy : EgressPolicy} {host : List Char}

theorem isGlobal_iff_checked {address : Address} (h : isBlocked policy address = false) :
    address.isGlobal = true ↔ isUnchecked policy address = false := by
  rw [IpAddress.Address.isGlobal_iff]
  unfold isBlocked at h
  unfold isUnchecked
  cases hblock : policy.blockPrivateIps with
  | false => simp
  | true =>
      rw [hblock] at h
      simp only [Bool.true_and, Bool.or_eq_false_iff] at h
      simp [h.1.1]

theorem checkInfo_eq_ok {info : AddrInfo} {address : ResolvedAddress}
    (h : checkInfo policy host info = .ok address) :
    ∃ ip, ipAddress address.host = some ip ∧ isBlocked policy ip = false := by
  unfold checkInfo at h
  obtain ⟨ip, hip, h⟩ := bind_eq_ok_iff.mp h
  obtain ⟨_, hblocked, h⟩ := bind_eq_ok_iff.mp h
  cases h
  exact ⟨ip, orRaise_eq_ok_iff.mp hip, raiseIf_eq_ok_iff.mp hblocked⟩

variable {answer : Answer}

theorem validated_eq_ok {result : List ResolvedAddress}
    (h : validated policy host answer = .ok result) : ∀ address ∈ result,
      ∃ ip, ipAddress address.host = some ip ∧ isBlocked policy ip = false := by
  unfold validated at h
  split at h
  · cases h
  · next infos =>
      obtain ⟨_, -, h⟩ := bind_eq_ok_iff.mp h
      obtain ⟨result', hresult, h⟩ := bind_eq_ok_iff.mp h
      obtain ⟨_, -, h⟩ := bind_eq_ok_iff.mp h
      cases h
      intro address haddress
      obtain ⟨info, -, hinfo⟩ := exists_of_mapM_eq_ok hresult haddress
      exact checkInfo_eq_ok hinfo

theorem isPublic_iff_checked {result : List ResolvedAddress}
    (h : validated policy host answer = .ok result) :
    (∀ address ∈ result, IsPublic address) ↔
      ∀ address ∈ result, ∀ ip, ipAddress address.host = some ip →
        isUnchecked policy ip = false := by
  refine forall₂_congr fun address haddress => ?_
  obtain ⟨ip, hip, hblocked⟩ := validated_eq_ok h address haddress
  have hiff := isGlobal_iff_checked hblocked
  constructor
  · rintro ⟨ip', hip', hglobal⟩ ip'' hip''
    cases hip.symm.trans hip'
    cases hip.symm.trans hip''
    exact hiff.mp hglobal
  · exact fun hchecked => ⟨ip, hip, hiff.mpr (hchecked ip hip)⟩

end Checks

section Pins

variable {pins : Pins} {key : PinKey} {result : List ResolvedAddress}

/-- **What is pinned is there**, and the cache stays within its bound. -/
theorem pin_spec (key : PinKey) (result : List ResolvedAddress)
    (h : pins.rows.length ≤ maxPinnedEntries) :
    (pin pins (key, result)).lookup key = some (key, result) ∧
      (pin pins (key, result)).rows.length ≤ maxPinnedEntries := by
  have hset : (pins.setItem (key, result)).lookup key = some (key, result) := by
    rw [KeyedTable.lookup_setItem, if_pos rfl]
  unfold pin
  split_ifs with hfull
  · rcases KeyedTable.rows_setItem pins (key, result) with ⟨-, hlength⟩ | ⟨-, hrows⟩
    · rw [hlength] at hfull
      exact absurd hfull (Nat.not_lt.mpr h)
    · -- The entry is behind an older one, which goes.
      rw [hrows, List.length_append, List.length_singleton] at hfull
      obtain ⟨first, rest, hcons⟩ : ∃ first rest, pins.rows = first :: rest := by
        refine List.exists_cons_of_ne_nil fun hempty => ?_
        rw [hempty] at hfull
        exact absurd hfull (by decide)
      have htail : (pins.setItem (key, result)).popFirst.rows = rest ++ [(key, result)] := by
        show (pins.setItem (key, result)).rows.tail = _
        rw [hrows, hcons]
        rfl
      constructor
      · rw [KeyedTable.lookup_eq_some_iff, htail]
        exact ⟨List.mem_append_right _ (List.mem_singleton.mpr rfl), rfl⟩
      · rw [htail, List.length_append, List.length_singleton]
        rw [hcons, List.length_cons] at h
        exact h
  · exact ⟨hset, Nat.not_lt.mp hfull⟩

theorem lookup_of_pin {other : PinKey} {entry : Pin} (hne : other ≠ key)
    (h : (pin pins (key, result)).lookup other = some entry) :
    pins.lookup other = some entry := by
  have hset : (pins.setItem (key, result)).lookup other = pins.lookup other := by
    rw [KeyedTable.lookup_setItem, if_neg (Ne.symm hne)]
  unfold pin at h
  split_ifs at h
  · rw [← hset]
    exact KeyedTable.lookup_of_popFirst h
  · rw [← hset]
    exact h

end Pins

/-! ## One step -/

/-- What an action can do. -/
inductive Effect (policy : EgressPolicy) (s : State) (a : Action) : Pins → Option Pin → Prop
  /-- a call finds a pin -/
  | hit {key : PinKey} {entry : Pin} (h : s.pinned.lookup key = some entry)
      (hno : ∀ key result, ¬Answers policy s a key result) :
      Effect policy s a (s.pinned.moveToEnd key) (some entry)
  /-- a call waits, or ends without a result -/
  | kept (hno : ∀ key result, ¬Answers policy s a key result) : Effect policy s a s.pinned none
  /-- a call pins its result -/
  | stored {key : PinKey} {result : List ResolvedAddress} (h : Answers policy s a key result)
      (honly : ∀ key' result', Answers policy s a key' result' → key' = key ∧ result' = result) :
      Effect policy s a (pin s.pinned (key, result)) (some (key, result))
  | closed (hno : ∀ key result, ¬Answers policy s a key result) :
      Effect policy s a (.empty _) none

section Steps

variable {policy : EgressPolicy} {o o' : Observed} {a : Action}

theorem act_effect {s s' : State} {returned : Option Pin} (h : act policy s a = some (s', returned)) :
    Effect policy s a s'.pinned returned := by
  cases a with
  | resolve key =>
      have hno : ∀ key' result, ¬Answers policy s (.resolve key) key' result := by
        rintro key' result ⟨call, answer, heq, -⟩
        cases heq
      simp only [act] at h
      split at h
      · next entry hentry =>
          cases h
          exact .hit hentry hno
      · cases h
        exact .kept hno
  | answer call answer =>
      obtain ⟨key, hkey, h⟩ := Option.map_eq_some_iff.mp h
      split at h
      · next e herror =>
          cases h
          refine .kept ?_
          rintro key' result ⟨call', answer', heq, hkey', hok⟩
          cases heq
          cases hkey.symm.trans hkey'
          cases herror.symm.trans hok
      · next result hok =>
          cases h
          refine .stored ⟨call, answer, rfl, hkey, hok⟩ ?_
          rintro key' result' ⟨call', answer', heq, hkey', hok'⟩
          cases heq
          cases hkey.symm.trans hkey'
          exact ⟨rfl, Except.ok.inj (hok'.symm.trans hok)⟩
  | cancel call =>
      obtain ⟨key, hkey, h⟩ := Option.map_eq_some_iff.mp h
      cases h
      refine .kept ?_
      rintro key' result ⟨call', answer, heq, -⟩
      cases heq
  | close =>
      cases h
      refine .closed ?_
      rintro key' result ⟨call, answer, heq, -⟩
      cases heq

/-- The pins are what calls have returned since they are there, and nothing else is. -/
structure Agreed (o : Observed) : Prop where
  pinned : ∀ entry, o.state.pinned.lookup entry.1 = some entry → entry ∈ o.since
  since : ∀ entry ∈ o.since, o.state.pinned.lookup entry.1 = some entry
  returned : ∀ entry ∈ o.since, entry ∈ o.returned
  isPublic : ∀ entry ∈ o.returned, ∀ address ∈ entry.2, IsPublic address
  bounded : o.state.pinned.rows.length ≤ maxPinnedEntries

theorem Agreed.toPinned (h : Agreed o) : Pinned o where
  same key first second hfirst hsecond := by
    have hone : o.state.pinned.lookup key = some (key, first) := h.since (key, first) hfirst
    have hother : o.state.pinned.lookup key = some (key, second) := h.since (key, second) hsecond
    exact (Prod.mk.inj (Option.some.inj (hone.symm.trans hother))).2
  isPublic := h.isPublic
  bounded := h.bounded

/-- What a step has to keep. -/
theorem agreed_of_pins {state : State} {returned : List Pin} (h : Agreed o)
    (hpinned : ∀ entry, state.pinned.lookup entry.1 = some entry → entry ∈ o.since ++ returned)
    (hsince : ∀ entry ∈ o.since ++ returned, ∀ other,
      state.pinned.lookup entry.1 = some other → other = entry)
    (hpublic : ∀ entry ∈ returned, ∀ address ∈ entry.2, IsPublic address)
    (hbounded : state.pinned.rows.length ≤ maxPinnedEntries) :
    Agreed ⟨state, o.returned ++ returned, (o.since ++ returned).filter fun entry =>
      (state.pinned.lookup entry.1).isSome⟩ where
  pinned entry hentry := List.mem_filter.mpr ⟨hpinned entry hentry, by rw [hentry]; rfl⟩
  since entry hentry := by
    obtain ⟨hmem, hsome⟩ := List.mem_filter.mp hentry
    obtain ⟨other, hother⟩ := Option.isSome_iff_exists.mp hsome
    rw [← hsince entry hmem other hother]
    exact (hsince entry hmem other hother).symm ▸ hother
  returned entry hentry := by
    rcases List.mem_append.mp (List.mem_filter.mp hentry).1 with hmem | hmem
    · exact List.mem_append_left _ (h.returned entry hmem)
    · exact List.mem_append_right _ hmem
  isPublic entry hentry := by
    rcases List.mem_append.mp hentry with hmem | hmem
    · exact h.isPublic entry hmem
    · exact hpublic entry hmem
  bounded := hbounded

/-- **A step whose answer agrees keeps the pins.** -/
theorem agreed_of_step (h : Agreed o) (hstep : step policy o a = some o')
    (hagree : AnswersAgree policy o a o') : Agreed o' := by
  obtain ⟨⟨state, returned⟩, hact, rfl⟩ := Option.map_eq_some_iff.mp hstep
  have heffect := act_effect hact
  have hold : ∀ entry ∈ o.since, ∀ other, o.state.pinned.lookup entry.1 = some other →
      other = entry := fun entry hentry other hother =>
    Option.some.inj (hother.symm.trans (h.since entry hentry))
  generalize hpins : state.pinned = pins at heffect
  cases heffect with
  | @hit key entry hentry hno =>
      have hlookup : ∀ k, state.pinned.lookup k = o.state.pinned.lookup k := fun k => by
        rw [hpins, KeyedTable.lookup_moveToEnd]
      obtain rfl := KeyedTable.key_of_lookup hentry
      have hmem := h.pinned entry hentry
      refine agreed_of_pins h (fun e he => ?_) (fun e he other hother => ?_) (fun e he => ?_) ?_
      · rw [hlookup] at he
        exact List.mem_append_left _ (h.pinned e he)
      · rw [hlookup] at hother
        rcases List.mem_append.mp he with he | he
        · exact hold e he other hother
        · obtain rfl := List.mem_singleton.mp he
          exact hold e hmem other hother
      · obtain rfl := List.mem_singleton.mp he
        exact h.isPublic e (h.returned e hmem)
      · rw [hpins, (KeyedTable.perm_moveToEnd _ _).length_eq]
        exact h.bounded
  | kept hno =>
      refine agreed_of_pins h (fun e he => ?_) (fun e he other hother => ?_)
        (fun e he => absurd he List.not_mem_nil) ?_
      · rw [hpins] at he
        exact List.mem_append_left _ (h.pinned e he)
      · rw [hpins] at hother
        exact hold e ((List.append_nil o.since) ▸ he) other hother
      · rw [hpins]
        exact h.bounded
  | @stored key result hanswers honly =>
      obtain ⟨hsame, hchecked⟩ := hagree key result hanswers
      obtain ⟨hkey, hbounded⟩ := pin_spec key result h.bounded
      refine agreed_of_pins h (fun e he => ?_) (fun e he other hother => ?_) (fun e he => ?_) ?_
      · rw [hpins] at he
        by_cases heq : e.1 = key
        · rw [heq, hkey] at he
          exact List.mem_append_right _ (List.mem_singleton.mpr (Option.some.inj he).symm)
        · exact List.mem_append_left _ (h.pinned e (lookup_of_pin heq he))
      · rw [hpins] at hother
        rcases List.mem_append.mp he with hmem | hmem
        · by_cases heq : e.1 = key
          · -- The key had a pin, which the answer agrees with.
            obtain ⟨key', list⟩ := e
            obtain rfl : key' = key := heq
            have hlist : o.state.pinned.lookup key' = some (key', list) := h.since (key', list) hmem
            rw [hsame list hlist]
            exact Option.some.inj (hother.symm.trans hkey)
          · exact hold e hmem other (lookup_of_pin heq hother)
        · obtain rfl := List.mem_singleton.mp hmem
          exact Option.some.inj (hother.symm.trans hkey)
      · obtain rfl := List.mem_singleton.mp he
        obtain ⟨call, answer, -, -, hok⟩ := hanswers
        exact (isPublic_iff_checked hok).mpr hchecked
      · rw [hpins]
        exact hbounded
  | closed hno =>
      refine agreed_of_pins h (fun e he => ?_) (fun e he other hother => ?_)
        (fun e he => absurd he List.not_mem_nil) ?_
      · rw [hpins] at he
        cases he
      · rw [hpins] at hother
        cases hother
      · rw [hpins]
        exact Nat.zero_le _

/-- What is found behind a step tells whether its answer has agreed. -/
theorem pinned_iff_agree (h : Agreed o) (hstep : step policy o a = some o') :
    Pinned o' ↔ AnswersAgree policy o a o' := by
  constructor
  · intro hpinned
    obtain ⟨⟨state, returned⟩, hact, rfl⟩ := Option.map_eq_some_iff.mp hstep
    have heffect := act_effect hact
    intro key result hanswers
    generalize hpins : state.pinned = pins at heffect
    cases heffect with
    | hit _ hno | kept hno | closed hno => exact absurd hanswers (hno key result)
    | @stored key' result' _ honly =>
        obtain ⟨rfl, rfl⟩ := honly key result hanswers
        obtain ⟨hkey, -⟩ := pin_spec key result h.bounded
        have hsome : (state.pinned.lookup key).isSome = true := by
          rw [hpins, hkey]
          rfl
        refine ⟨fun pinned hlookup => ?_, ?_⟩
        · refine hpinned.same key pinned result ?_ ?_
          · exact List.mem_filter.mpr
              ⟨List.mem_append_left _ (h.pinned (key, pinned) hlookup), hsome⟩
          · exact List.mem_filter.mpr
              ⟨List.mem_append_right _ (List.mem_singleton.mpr rfl), hsome⟩
        · obtain ⟨call, answer, -, -, hok⟩ := hanswers
          refine (isPublic_iff_checked hok).mp (hpinned.isPublic (key, result) ?_)
          exact List.mem_append_right _ (List.mem_singleton.mpr rfl)
  · exact fun hagree => (agreed_of_step h hstep hagree).toPinned

end Steps

theorem agreed_initial : Agreed initial where
  pinned entry h := by cases h
  since entry h := absurd h List.not_mem_nil
  returned entry h := absurd h List.not_mem_nil
  isPublic entry h := absurd h List.not_mem_nil
  bounded := Nat.zero_le _

/-- **In every run** the pins hold exactly if each valid answer agrees with the pin of its key and has
no address that goes unchecked. -/
theorem pins_iff (policy : EgressPolicy) (schedule : List Action) :
    Runs.Throughout (step policy) Pinned initial schedule ↔
      Runs.Always (step policy) (AnswersAgree policy) initial schedule := by
  have hiff := Runs.always_iff_of_guarded (I := Agreed)
    (P := fun _ _ o' => Pinned o') (C := AnswersAgree policy)
    (fun _ _ _ h hstep hagree => agreed_of_step h hstep hagree)
    (fun _ _ _ h hstep => pinned_iff_agree h hstep) agreed_initial schedule
  exact ⟨fun h => hiff.mp h.2, fun h => ⟨agreed_initial.toPinned, hiff.mpr h⟩⟩

/-- Two calls wait, and their answers differ. -/
def rebinding : List Action :=
  [.resolve ("example.com".toList, 443), .resolve ("example.com".toList, 443),
    .answer 0 (some [⟨2, 6, "93.184.216.34".toList, 443⟩]),
    .answer 0 (some [⟨2, 6, "8.8.8.8".toList, 443⟩])]

theorem pins_counterexample : ∃ policy : EgressPolicy, policy.blockPrivateIps = true ∧
    ¬Runs.Throughout (step policy) Pinned initial rebinding := by
  refine ⟨⟨[], [], [], true⟩, rfl, fun h => ?_⟩
  have hrun : ∃ o, Runs.exec (step ⟨[], [], [], true⟩) initial rebinding = some o ∧
      ∃ first second, (("example.com".toList, 443), first) ∈ o.since ∧
        (("example.com".toList, 443), second) ∈ o.since ∧ first ≠ second := by
    refine ⟨_, rfl, [⟨"example.com".toList, "93.184.216.34".toList, 443, 2, 6, 4⟩],
      [⟨"example.com".toList, "8.8.8.8".toList, 443, 2, 6, 4⟩], ?_, ?_, by decide⟩
    · decide +kernel
    · decide +kernel
  obtain ⟨o, hexec, first, second, hfirst, hsecond, hne⟩ := hrun
  exact hne ((h.exec hexec).same _ first second hfirst hsecond)

end SkyClaw.Security.SafeResolver
