import SkyClaw.Core.DlqManager

/-!
# What a worker leaves of a row

Topic, payload, source, timestamp and handler name are written by `enqueue` only.  So the copies
that a worker fetches and the events that it hands out are those that were enqueued under the
number of the row.
-/

namespace SkyClaw.Core.Dlq

variable {Payload : Type}

/-- The event of a stored row. -/
def DLQRecord.event (r : DLQRecord Payload) : Event Payload :=
  { topic := r.topic, payload := r.payload, timestampMs := r.eventTsMs, source := r.source }

/-- The copies of rows a worker has. -/
def WorkerPhase.copies : WorkerPhase Payload → List (DLQRow Payload)
  | .batch rows => rows
  | .claiming _ row rest | .resolving row rest | .handling row rest | .settling row _ rest =>
      row :: rest
  | .stopped | .recovering _ | .idle | .fetching _ => []

/-- What `enqueue` has entered in two rows is the same. -/
def Alike (r q : DLQRecord Payload) : Prop := r.event = q.event ∧ r.handlerName = q.handlerName

/-- Every row was there before, with the same event for the same handler. -/
def SameEntries (before after : DLQTable Payload) : Prop :=
  ∀ id r, after.row id = some r → ∃ q, before.row id = some q ∧ Alike r q

section Statements

variable {table : DLQTable Payload}

theorem SameEntries.refl (table : DLQTable Payload) : SameEntries table table :=
  fun _ r hr => ⟨r, hr, rfl, rfl⟩

variable {f : DLQRecord Payload → DLQRecord Payload}

theorem SameEntries.mapRows (table : DLQTable Payload) (hf : ∀ r, Alike (f r) r) :
    SameEntries table (table.mapRows f) := by
  intro id r hr
  rw [AutoTable.row_mapRows] at hr
  obtain ⟨q, hq, rfl⟩ := Option.map_eq_some_iff.mp hr
  exact ⟨q, hq, hf q⟩

theorem SameEntries.update (table : DLQTable Payload) (id : Nat) (hf : ∀ r, Alike (f r) r) :
    SameEntries table (table.update id f) := by
  intro id' r hr
  by_cases hself : id' = id
  · subst hself
    rw [AutoTable.row_update_self] at hr
    obtain ⟨q, hq, rfl⟩ := Option.map_eq_some_iff.mp hr
    exact ⟨q, hq, hf q⟩
  · rw [AutoTable.row_update_of_ne table f hself] at hr
    exact ⟨r, hr, rfl, rfl⟩

theorem SameEntries.delete (table : DLQTable Payload) (id : Nat) :
    SameEntries table (table.delete id) := by
  intro id' r hr
  by_cases hself : id' = id
  · subst hself
    rw [AutoTable.row_delete_self] at hr
    cases hr
  · rw [AutoTable.row_delete_of_ne table hself] at hr
    exact ⟨r, hr, rfl, rfl⟩

theorem SameEntries.leaves {before after : DLQTable Payload} (ended : StatementEnd)
    (h : SameEntries before after) : SameEntries before (ended.leaves before after) := by
  rcases ended.leaves_cases before after with hends | hends
  · rw [hends]
    exact SameEntries.refl before
  · rw [hends]
    exact h

theorem sameEntries_recoverStaleRows (table : DLQTable Payload) (now : Int) :
    SameEntries table (recoverStaleRows table now) := by
  refine SameEntries.mapRows table fun r => ?_
  split
  · exact ⟨rfl, rfl⟩
  · exact ⟨rfl, rfl⟩

theorem sameEntries_claimRow (table : DLQTable Payload) (id : Nat) (now : Int) :
    SameEntries table (claimRow table id now) := by
  refine SameEntries.update table id fun r => ?_
  split
  · exact ⟨rfl, rfl⟩
  · exact ⟨rfl, rfl⟩

theorem sameEntries_settlement (table : DLQTable Payload) (id : Nat) (write : Settlement) :
    SameEntries table (write.run table id) := by
  cases write with
  | defer | markDead => exact SameEntries.update table id fun _ => ⟨rfl, rfl⟩
  | reschedule attempts nextRetry errorType errorMessage now =>
      exact SameEntries.update table id fun _ => ⟨rfl, rfl⟩
  | delete => exact SameEntries.delete table id

end Statements

section Workers

variable {maxAttempts now : Int} {settings : DLQSettings} {table : DLQTable Payload}
  {phase : WorkerPhase Payload} {event : WorkerEvent} {moved : Moved Payload}

/-- **A worker rewrites no entry.** -/
theorem workerStep_sameEntries
    (h : workerStep maxAttempts settings now table phase event = some moved) :
    SameEntries table moved.table := by
  cases moves_of_workerStep h with
  | recovers => exact sameEntries_recoverStaleRows table _
  | @recoveryRaises _ ended => exact (sameEntries_recoverStaleRows table _).leaves ended
  | claims | claimMisses => exact sameEntries_claimRow table _ _
  | @claimRaises _ _ _ ended => exact (sameEntries_claimRow table _ _).leaves ended
  | @settles row write => exact sameEntries_settlement table row.id write
  | @settlementRaises row write _ ended =>
      exact (sameEntries_settlement table row.id write).leaves ended
  | _ => exact SameEntries.refl table

theorem workerStep_copies
    (h : workerStep maxAttempts settings now table phase event = some moved) :
    ∀ row ∈ moved.phase.copies, row ∈ phase.copies ∨ table.row row.id = some row.toDLQRecord := by
  have hrest : ∀ (first : DLQRow Payload) rest, ∀ row ∈ rest,
      row ∈ first :: rest ∨ table.row row.id = some row.toDLQRecord :=
    fun first _ _ hrow => .inl (List.mem_cons_of_mem first hrow)
  cases moves_of_workerStep h with
  | @fetches readAt =>
      intro row hrow
      exact .inr ((fetchDueBatch_spec table readAt settings.batchSize).1 row hrow).1
  | takes | claims | invokes | defers | handlerReturns | handlerRaises
      => exact fun _ hrow => .inl hrow
  | @claimMisses _ row rest | @settles row _ rest => exact hrest row rest
  | _ => exact nofun

theorem workerStep_invoked
    (h : workerStep maxAttempts settings now table phase event = some moved) :
    ∀ i ∈ moved.invoked, ∃ row ∈ phase.copies, i = ⟨row.id, row.handlerName, row.event, now⟩ := by
  cases moves_of_workerStep h with
  | @invokes row rest =>
      intro i hi
      exact ⟨row, List.mem_cons_self, List.mem_singleton.mp hi⟩
  | _ => exact nofun

end Workers

end SkyClaw.Core.Dlq
