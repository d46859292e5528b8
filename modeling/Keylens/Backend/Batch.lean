import Keylens.Backend.Scan

/-!
# One batch

What a batch takes from the stream of pages that the scanner has still to
yield: some pages, up to an error if one comes before the batch is full.
-/

namespace Keylens.Backend

open Keylens.Library Keylens.Connection

/-- What a scanner has still to yield. -/
abbrev Pages := List (Except ClientError (List Str))

/-- What the scanner of a worker has still to yield. -/
def Worker.unread (worker : Worker) : Pages :=
  (worker.scanner.map KeyScanner.pages).getD []

/-- A scan for some type filter stands before some pages. -/
structure Worker.Before (worker : Worker) (kind : Option Kind) (unread : Pages) : Prop where
  scanner_eq : worker.scanner = some ⟨unread⟩
  ended : worker.complete → unread = []
  kind_eq : worker.kind = kind

section Batch

variable {kind : Option Kind} {left : Nat} {keys : List Str} {pages : Nat} {worker : Worker}
variable {unread : Pages}

/-- What gathering a batch comes to, with the keys so far and the pages that may
still be asked for. -/
inductive Gathers (kind : Option Kind) (left : Nat) (keys : List Str) (unread : Pages) :
    Result (List Str × Nat) × Worker → Prop where
  | batch (taken : List (List Str)) (after : Pages) (pages : Nat) (worker : Worker)
      (split : unread = taken.map .ok ++ after) (before : worker.Before kind after)
      (progress : 0 < left → keys.length < batchTarget →
        worker.complete ∨ after.length < unread.length) :
      Gathers kind left keys unread (.ok (keys ++ taken.flatten, pages), worker)
  | error (taken : List (List Str)) (source : ClientError) (after : Pages) (worker : Worker)
      (split : unread = taken.map .ok ++ .error source :: after) (before : worker.Before kind after)
      (within : taken.length < left) (short : (keys ++ taken.flatten).length < batchTarget) :
      Gathers kind left keys unread (.error (.command .scan source), worker)

/-- Taking no page at all. -/
theorem Gathers.stop (before : worker.Before kind unread)
    (progress : 0 < left → keys.length < batchTarget → worker.complete) (pages : Nat) :
    Gathers kind left keys unread (.ok (keys, pages), worker) := by
  have gathers : Gathers kind left keys unread (.ok (keys ++ [].flatten, pages), worker) :=
    .batch [] unread pages worker rfl before fun positive short => .inl (progress positive short)
  simpa using gathers

/-- One page more in front. -/
theorem Gathers.cons {page : List Str}
    {result : Result (List Str × Nat) × Worker}
    (gathers : Gathers kind left (keys ++ page) unread result) :
    Gathers kind (left + 1) keys (.ok page :: unread) result := by
  cases gathers with
  | batch taken after pages worker split before _ =>
      rw [List.append_assoc, ← List.flatten_cons]
      apply Gathers.batch
      · rw [split]
        rfl
      · exact before
      · intro _ _
        right
        rw [split]
        simp only [List.length_append, List.length_cons, List.length_map]
        omega
  | error taken source after worker split before within short =>
      apply Gathers.error (page :: taken) source after
      · rw [split]
        rfl
      · exact before
      · simpa using within
      · simpa using short

theorem gathers_gather (before : worker.Before kind unread) :
    Gathers kind left keys unread (worker.gather left keys pages) := by
  induction left generalizing keys pages worker unread with
  | zero => exact Gathers.stop before (fun positive => absurd positive (Nat.lt_irrefl 0)) pages
  | succ left ih =>
      rw [Worker.gather, before.scanner_eq]
      split
      next going =>
          have reading : ∀ rest : Pages,
              ({ worker with scanner := some ⟨rest⟩ } : Worker).Before kind rest := by
            intro rest
            exact ⟨rfl, fun complete => absurd complete (by simp [going.2]), before.kind_eq⟩
          cases unread with
          | nil =>
              apply Gathers.stop
              · exact ⟨rfl, fun _ => rfl, before.kind_eq⟩
              · exact fun _ _ => rfl
          | cons result unread =>
              cases result with
              | ok page =>
                  apply Gathers.cons
                  exact ih (reading unread)
              | error source =>
                  apply Gathers.error [] source unread
                  · rfl
                  · exact reading unread
                  · exact Nat.succ_pos left
                  · simpa using going.1
      next stopped =>
          apply Gathers.stop before
          intro _ short
          simpa [short] using stopped

/-- A worker that has more to read is not complete. -/
theorem Worker.Before.reading {result : Except ClientError (List Str)}
    (before : worker.Before kind (result :: unread)) :
    worker.complete = false ∧
      ∀ rest : Pages, ({ worker with scanner := some ⟨rest⟩ } : Worker).Before kind rest := by
  have incomplete : worker.complete = false := by
    cases complete : worker.complete with
    | false => rfl
    | true => cases before.ended complete
  refine ⟨incomplete, fun rest => ⟨rfl, ?_, before.kind_eq⟩⟩
  intro complete
  rw [incomplete] at complete
  cases complete

/-- A batch meets an error when one follows before the batch is full. -/
theorem gather_of_error {taken : List (List Str)} {source : ClientError} {after : Pages}
    (before : worker.Before kind (taken.map .ok ++ .error source :: after))
    (within : taken.length < left) (short : (keys ++ taken.flatten).length < batchTarget) :
    ∃ worker', worker.gather left keys pages = (.error (.command .scan source), worker') ∧
      worker'.Before kind after := by
  induction taken generalizing left keys pages worker with
  | nil =>
      cases left with
      | zero => cases within
      | succ left =>
          rw [List.flatten_nil, List.append_nil] at short
          rcases before.reading with ⟨incomplete, reading⟩
          refine ⟨{ worker with scanner := some ⟨after⟩ }, ?_, reading after⟩
          rw [Worker.gather, if_pos ⟨short, incomplete⟩, before.scanner_eq]
          rfl
  | cons page taken ih =>
      cases left with
      | zero => cases within
      | succ left =>
          rcases before.reading with ⟨incomplete, reading⟩
          rw [List.flatten_cons, ← List.append_assoc] at short
          have keysShort : keys.length < batchTarget := by
            apply lt_of_le_of_lt _ short
            simp only [List.length_append]
            omega
          rw [Worker.gather, if_pos ⟨keysShort, incomplete⟩, before.scanner_eq]
          exact ih (reading _) (Nat.lt_of_succ_lt_succ within) short

theorem Worker.Before.unread_eq (before : worker.Before kind unread) : worker.unread = unread := by
  rw [Worker.unread, before.scanner_eq]
  rfl

/-- A scan that has just been opened stands before all its pages. -/
theorem Worker.before_openScan (worker : Worker) (scene : Scene) (pattern : Option Str)
    (kind : Option Kind) :
    (worker.openScan scene pattern kind).Before kind (worker.openScan scene pattern kind).unread :=
  ⟨rfl, nofun, rfl⟩

/-- Before the next batch is full, an error comes. -/
def MeetsError (unread : Pages) : Prop :=
  ∃ (pages : List (List Str)) (source : ClientError) (after : Pages),
    unread = pages.map .ok ++ .error source :: after ∧
    pages.length < maxPagesPerBatch ∧ pages.flatten.length < batchTarget

/-- Before any scan has been opened there is nothing to deliver. -/
theorem scanBatch_of_none (unopened : worker.scanner = none) (conn : Conn) (reset : Bool) :
    ∃ worker' keys complete pages,
      worker.scanBatch conn reset = (worker', .batch keys reset complete pages) ∧
        worker'.scanner = none := by
  cases complete : worker.complete with
  | true =>
      have gathered : worker.gather maxPagesPerBatch [] 0 = (.ok ([], 0), worker) := by
        simp [maxPagesPerBatch, Worker.gather, complete]
      refine ⟨worker, worker.typeKeys conn [], worker.complete, 0, ?_, unopened⟩
      rw [Worker.scanBatch, gathered]
  | false =>
      have gathered : worker.gather maxPagesPerBatch [] 0 =
          (.ok ([], 0), { worker with complete := true }) := by
        simp [maxPagesPerBatch, Worker.gather, complete, unopened, batchTarget]
      refine ⟨{ worker with complete := true },
        { worker with complete := true }.typeKeys conn [], true, 0, ?_, unopened⟩
      rw [Worker.scanBatch, gathered]

/-- A batch that meets an error ends in one. -/
theorem scanBatch_of_meetsError (before : worker.Before kind unread) (meets : MeetsError unread)
    (conn : Conn) (reset : Bool) :
    ∃ worker' after message,
      worker.scanBatch conn reset = (worker', .error message) ∧ worker'.Before kind after := by
  rcases meets with ⟨taken, source, after, split, within, short⟩
  rw [split] at before
  have found : ∃ worker', worker.gather maxPagesPerBatch [] 0 =
      (.error (.command .scan source), worker') ∧ worker'.Before kind after :=
    gather_of_error before within (by rwa [List.nil_append])
  rcases found with ⟨worker', gathered, next⟩
  refine ⟨worker', after, (ConnError.command .scan source).text, ?_, next⟩
  rw [Worker.scanBatch, gathered]

/-- A batch that meets none delivers keys. -/
theorem scanBatch_of_not_meetsError (before : worker.Before kind unread)
    (meets : ¬MeetsError unread) (conn : Conn) (reset : Bool) :
    ∃ worker' after keys complete pages,
      worker.scanBatch conn reset = (worker', .batch keys reset complete pages) ∧
        worker'.Before kind after := by
  have gathers : Gathers kind maxPagesPerBatch [] unread (worker.gather maxPagesPerBatch [] 0) :=
    gathers_gather before
  generalize gathered : worker.gather maxPagesPerBatch [] 0 = result at gathers
  cases gathers with
  | batch taken after pages worker' split next _ =>
      refine ⟨worker', after, worker'.typeKeys conn ([] ++ taken.flatten), worker'.complete,
        pages, ?_, next⟩
      rw [Worker.scanBatch, gathered]
  | error taken source after worker' split next within short =>
      rw [List.nil_append] at short
      exact absurd ⟨taken, source, after, split, within, short⟩ meets

end Batch

end Keylens.Backend
