import Mathlib.Data.List.Chain
import PacketPlane.Proofs.Time.Bucket
import PacketPlane.Settings.Basic
import PacketPlane.Time.Clock

/-! Due times: how many cycles an interval has, and when something is found due that comes due again an
interval later each time. -/

namespace PacketPlane

/-- The cycles that are to lie between two reports, on a clock of a frequency. -/
def WorkerSettings.reportCycles (s : WorkerSettings) (hz : UInt64) : Nat :=
  -- Parts of a cycle do not count, and no word limits how many cycles there are.
  s.statsIntervalMs.toNat * hz.toNat / 1000

/-- A span of nanoseconds is exact in cycles as long as a word holds them, and only then. -/
theorem Clock.cyclesFor_exact_iff (c : Clock) (nanos : Nat) :
    (c.cyclesFor nanos).toNat = nanos * c.hz.toNat / 1000000000 ↔
      nanos * c.hz.toNat / 1000000000 < UInt64.size := by
  constructor
  · intro exact
    rw [← exact]
    exact UInt64.toNat_lt_size _
  · intro fits
    -- A quotient that fits in 64 bits comes from a product that fits in 128.
    have product : nanos * c.hz.toNat < 1 <<< 128 :=
      (Nat.lt_mul_of_div_lt fits (by decide)).trans (by decide)
    rw [cyclesFor, Nat.mod_eq_of_lt product, UInt64.toNat_ofNat_of_lt' fits]

/-- A span of milliseconds has a thousandth of its number in seconds. -/
theorem Clock.nanosOfMillis_cycles (millis hz : Nat) :
    nanosOfMillis millis * hz / 1000000000 = millis * hz / 1000 := by
  -- A million nanoseconds are a millisecond, above the line and below it.
  calc nanosOfMillis millis * hz / 1000000000
      = 1000000 * (millis * hz) / (1000000 * 1000) := by
        rw [nanosOfMillis, Nat.mul_comm millis, Nat.mul_assoc]
    _ = millis * hz / 1000 := Nat.mul_div_mul_left _ _ (by decide)

/-- Readings of which each lies at least an interval after the one before. -/
def AtLeastApart (interval : Nat) (readings : List UInt64) : Prop :=
  readings.IsChain fun earlier later => earlier.toNat + interval ≤ later.toNat

/-- Of two readings, the second lies an interval after the first. -/
@[simp]
theorem atLeastApart_pair {interval : Nat} {first second : UInt64} :
    AtLeastApart interval [first, second] ↔ first.toNat + interval ≤ second.toNat :=
  List.isChain_pair

/-- What happens at a reading: the next due time is reckoned from it, or somebody looks for what is
due. -/
inductive Occasion where
  | start (now : UInt64)
  | look (now : UInt64)

/-- The reading at which it happens. -/
def Occasion.now : Occasion → UInt64
  -- Either way the clock is read once.
  | .start now | .look now => now

/-- The readings at which something is found due that comes due again an interval after each of them, and
an interval after each start. -/
def dueAmong (interval due : UInt64) : List Occasion → List UInt64
  -- The sum wraps at 64 bits.
  | [] => []
  | .start now :: rest => dueAmong interval (now + interval) rest
  | .look now :: rest =>
    if due ≤ now then now :: dueAmong interval (now + interval) rest
    else dueAmong interval due rest

/-- The last reading in the lower half of a clock's range. -/
def Clock.lastLower : UInt64 := 0x7fffffffffffffff

/-- One more would be half the range. -/
theorem Clock.toNat_lastLower : lastLower.toNat = (1 <<< 63) - 1 :=
  rfl

section Due

variable {interval due : UInt64} {occasions : List Occasion}

/-- What is found due is found at some of the readings, in their order. -/
theorem dueAmong_sublist :
    (dueAmong interval due occasions).Sublist (occasions.map Occasion.now) := by
  -- Each reading is kept or left out, and a start is always left out.
  induction occasions generalizing due with
  | nil => exact List.Sublist.refl _
  | cons occasion rest ih =>
    cases occasion with
    | start now => exact ih.cons now
    | look now =>
      rw [dueAmong]
      split
      · exact ih.cons_cons now
      · exact ih.cons now

/-- On a clock that never goes back, nothing is due below a floor, and nothing again before its time, as
long as no sum wraps. -/
theorem dueAmong_apart {floor : Nat} (above : floor ≤ due.toNat)
    (ordered : occasions.Pairwise fun earlier later => earlier.now ≤ later.now)
    (later : ∀ occasion ∈ occasions, floor ≤ occasion.now.toNat + interval.toNat)
    (fits : ∀ occasion ∈ occasions, occasion.now.toNat + interval.toNat < UInt64.size) :
    (∀ first ∈ (dueAmong interval due occasions).head?, floor ≤ first.toNat) ∧
      AtLeastApart interval.toNat (dueAmong interval due occasions) := by
  -- What was found due raises the floor for the rest, and a start cannot fall short of the floor.
  induction occasions generalizing due floor with
  | nil => exact ⟨fun first none => absurd none (Option.not_mem_none first), List.IsChain.nil⟩
  | cons occasion rest ih =>
    rw [List.pairwise_cons] at ordered
    rw [List.forall_mem_cons] at later fits
    obtain ⟨next, ordered⟩ := ordered
    obtain ⟨here, later⟩ := later
    obtain ⟨sum, fits⟩ := fits
    have reckoned := toNat_add_of_fits sum
    cases occasion with
    | start now => exact ih (here.trans_eq reckoned.symm) ordered later fits
    | look now =>
      rw [dueAmong]
      split
      · rename_i reached
        have apart := @ih (now + interval) _ reckoned.ge ordered
          (fun other member => Nat.add_le_add_right (UInt64.le_iff_toNat_le.mp (next other member)) _)
          fits
        refine ⟨fun first head => ?_, List.isChain_cons.mpr apart⟩
        cases head
        exact above.trans (UInt64.le_iff_toNat_le.mp reached)
      · exact ih above ordered later fits

/-- In the lower half of a clock's range, what comes due again after half the range does so at most
once. -/
theorem dueAmong_half (half : interval.toNat = 1 <<< 63)
    (ordered : occasions.Pairwise fun earlier later => earlier.now ≤ later.now)
    (lower : ∀ occasion ∈ occasions, occasion.now.toNat < 1 <<< 63) (span : Nat) :
    AtLeastApart span (dueAmong interval due occasions) := by
  have fits : ∀ occasion ∈ occasions, occasion.now.toNat + interval.toNat < UInt64.size := by
    intro occasion member
    have low := lower occasion member
    show _ < 2 ^ 64
    omega
  -- No two readings of that half are so far apart.
  have apart : AtLeastApart interval.toNat (dueAmong interval due occasions) :=
    (dueAmong_apart (Nat.zero_le _) ordered (fun _ _ => Nat.zero_le _) fits).2
  refine apart.imp_of_mem_imp fun earlier later _ member apart => ?_
  obtain ⟨occasion, there, rfl⟩ := List.mem_map.mp (dueAmong_sublist.subset member)
  have low := lower occasion there
  omega

/-- In the lower half of a clock's range, what comes due again after any other number of cycles does so
at two readings. -/
theorem exists_dueAmong_pair (other : interval.toNat ≠ 1 <<< 63) :
    ∃ first second : UInt64, first ≤ second ∧ second.toNat < 1 <<< 63 ∧
      dueAmong interval 0 [.look first, .look second] = [first, second] := by
  -- An interval of less than half the range is reached, and one of more wraps around.
  have pair : ∀ first second : UInt64, first + interval ≤ second →
      dueAmong interval 0 [.look first, .look second] = [first, second] := by
    intro first second reached
    rw [dueAmong, if_pos (UInt64.zero_le), dueAmong, if_pos reached, dueAmong]
  by_cases short : interval.toNat < 1 <<< 63
  · refine ⟨0, interval, UInt64.zero_le, short, pair 0 interval ?_⟩
    rw [UInt64.zero_add]
    exact UInt64.le_refl _
  · -- From the last reading of that half, the sum wraps and is due at once.
    have position := Clock.toNat_lastLower
    refine ⟨Clock.lastLower, Clock.lastLower, UInt64.le_refl _, by omega, pair _ _ ?_⟩
    have size : interval.toNat < 2 ^ 64 := interval.toNat_lt
    rw [UInt64.le_iff_toNat_le, UInt64.toNat_add]
    omega

end Due

end PacketPlane
