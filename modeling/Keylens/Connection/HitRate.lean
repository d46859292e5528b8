import Keylens.Connection.Info
import Keylens.Library.Machine

/-!
# The hit rate

The stats pane divides the hits of the keyspace by all its reads.  Both counters are
numbers the server sent; their sum is formed on a 64-bit machine that stops when it
overflows.
-/

namespace Keylens.Connection.ServerInfo

open Keylens.Library

def get (info : ServerInfo) (key : String) : Option Str :=
  info.fields.lookup key.toList

def getU64 (info : ServerInfo) (key : String) : Option Nat :=
  (info.get key).bind (parseUnsigned (2 ^ 64 - 1))

/-- The hit rate, if the server has served any reads, as the numerator and the
denominator of the quotient that the source computes in floating point; `none` where
the sum overflows. -/
def hitRate? (info : ServerInfo) : Option (Option (Nat × Nat)) :=
  match info.getU64 "keyspace_hits", info.getU64 "keyspace_misses" with
  | some hits, some misses => do
      let total ← Machine.unsigned (hits + misses : Nat)
      some (if 0 < total then some (hits, total) else none)
  | _, _ => some none

example : (parse "keyspace_hits:90\r\nkeyspace_misses:10\r\n".toList).hitRate? =
    some (some (90, 100)) := by
  decide +kernel

/-- The hit rate of an answer to `INFO` is evaluated without overflow, and it is the
share of the hits in all reads. -/
def RateIsExact (raw : Str) : Prop :=
  let info := parse raw
  ∃ outcome, info.hitRate? = some outcome ∧
    ∀ rate, outcome = some rate →
      ∃ hits misses, info.getU64 "keyspace_hits" = some hits ∧
        info.getU64 "keyspace_misses" = some misses ∧
        0 < hits + misses ∧ rate = (hits, hits + misses)

/-- The counters of an answer can be added. -/
def CountersFit (raw : Str) : Prop :=
  let info := parse raw
  ∀ hits misses, info.getU64 "keyspace_hits" = some hits →
    info.getU64 "keyspace_misses" = some misses → hits + misses < 2 ^ 64

/-- A counter that is missing or is no number leaves no rate, and nothing is added. -/
theorem hitRate?_of_missing {info : ServerInfo}
    (missing : info.getU64 "keyspace_hits" = none ∨ info.getU64 "keyspace_misses" = none) :
    info.hitRate? = some none := by
  rw [hitRate?]
  split
  next counted read =>
      rcases missing with missing | missing
      · cases counted.symm.trans missing
      · cases read.symm.trans missing
  next => rfl

theorem hitRate?_of_counters {info : ServerInfo} {hits misses : Nat}
    (counted : info.getU64 "keyspace_hits" = some hits)
    (missed : info.getU64 "keyspace_misses" = some misses) :
    info.hitRate? =
      if hits + misses < 2 ^ 64 then
        some (if 0 < hits + misses then some (hits, hits + misses) else none)
      else none := by
  rw [hitRate?, counted, missed]
  dsimp only
  split
  next fits => rw [Machine.unsigned_eq fits]; rfl
  next exceeds =>
      have stops : Machine.unsigned (hits + misses : Nat) = none := if_neg (by omega)
      rw [stops]
      rfl

theorem rateIsExact_iff_countersFit (raw : Str) : RateIsExact raw ↔ CountersFit raw := by
  constructor
  · rintro ⟨outcome, evaluates, _⟩ hits misses counted missed
    by_contra exceeds
    rw [hitRate?_of_counters counted missed, if_neg exceeds] at evaluates
    cases evaluates
  · intro fits
    cases counted : (parse raw).getU64 "keyspace_hits" with
    | none => exact ⟨none, hitRate?_of_missing (.inl counted), by intro rate; simp⟩
    | some hits =>
        cases missed : (parse raw).getU64 "keyspace_misses" with
        | none => exact ⟨none, hitRate?_of_missing (.inr missed), by intro rate; simp⟩
        | some misses =>
            have evaluates := hitRate?_of_counters counted missed
            rw [if_pos (fits hits misses counted missed)] at evaluates
            refine ⟨_, evaluates, ?_⟩
            intro rate found
            split at found
            next read =>
                cases found
                exact ⟨hits, misses, counted, missed, read, rfl⟩
            next => cases found

/-- A counter at the largest value of its type and one miss. -/
theorem full_counter_stops_hit_rate :
    let raw := "keyspace_hits:18446744073709551615\r\nkeyspace_misses:1\r\n".toList
    ¬RateIsExact raw ∧ (parse raw).hitRate? = none := by
  intro raw
  have stops : (parse raw).hitRate? = none := by decide +kernel
  refine ⟨?_, stops⟩
  rintro ⟨outcome, evaluates, _⟩
  cases stops.symm.trans evaluates

end Keylens.Connection.ServerInfo
