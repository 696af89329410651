import Mathlib.Algebra.Order.Floor.Div
import Mathlib.Tactic.Ring
import PacketPlane.Proofs.Time.Bucket

/-! Rates: when a pacer keeps to its rate, and what becomes of a rate that does not divide the
frequency of the clock. -/

namespace PacketPlane

namespace Poll

/-- Polls that pull, in every window of cycles, no more than one burst and what a rate on a clock of a
frequency has for that many cycles. -/
def Respects (polls : List Poll) (rate hz : UInt64) (burst : Nat) : Prop :=
  ∀ window, window <:+: polls → ∀ cycles, span window ≤ cycles →
    total window ≤ burst + (cycles * rate.toNat) ⌈/⌉ hz.toNat

/-- A packet pulled at the end of each of some periods. -/
def periodic (now period : UInt64) : Nat → List Poll
  | 0 => []
  | count + 1 => ⟨now + period, 1, 1⟩ :: periodic (now + period) period count

/-- As many packets are pulled as there are periods. -/
theorem total_periodic (now period : UInt64) (count : Nat) :
    total (periodic now period count) = count := by
  -- By induction on the number of periods.
  induction count generalizing now with
  | zero => rfl
  | succ count ih =>
    calc total (periodic now period (count + 1))
        = 1 + total (periodic (now + period) period count) := List.sum_cons
      _ = count + 1 := by rw [ih, Nat.add_comm]

/-- The last packet is pulled at the end of the last period. -/
theorem last_periodic {now period : UInt64} {count : Nat} {x : Poll} (start : x.now = now)
    (fits : now.toNat + count * period.toNat < UInt64.size) :
    ((periodic now period count).getLastD x).now.toNat = now.toNat + count * period.toNat := by
  -- By induction on the number of periods, none of which wraps since the last one does not.
  induction count generalizing now x with
  | zero => rw [← start, Nat.zero_mul]; rfl
  | succ count ih =>
    rw [Nat.add_mul, Nat.one_mul] at fits ⊢
    have next : (now + period).toNat = now.toNat + period.toNat :=
      toNat_add_of_fits (Nat.lt_of_le_of_lt (by omega) fits)
    rw [periodic, List.getLastD_cons, @ih (now + period) _ rfl (by omega), next]
    omega

end Poll

namespace Pacer

variable {p : Pacer} {rate hz now : UInt64} {burst : Nat}

/-- Cycles between two tokens on a clock that is at least as fast as the rate. -/
theorem cyclesPerPacket_make (paced : 0 < rate) (slower : rate ≤ hz) (burst : Nat) (now : UInt64) :
    (make rate hz burst now).cyclesPerPacket.toNat = hz.toNat / rate.toNat := by
  -- Neither of the two lower bounds is needed, since the quotient is one at least.
  rw [UInt64.lt_iff_toNat_lt, UInt64.toNat_zero] at paced
  rw [UInt64.le_iff_toNat_le] at slower
  rw [make, toNat_max, UInt64.toNat_div, toNat_max]
  show max (hz.toNat / max rate.toNat 1) 1 = _
  rw [Nat.max_eq_left paced, Nat.max_eq_left ((Nat.one_le_div_iff paced).mpr slower)]

/-- A rate that is faster than the clock gives a token each cycle. -/
theorem cyclesPerPacket_make_fast (ticks : 0 < hz) (faster : hz ≤ rate) (burst : Nat)
    (now : UInt64) : (make rate hz burst now).cyclesPerPacket.toNat = 1 := by
  -- The quotient is one at most, and a packet takes a cycle at least.
  rw [UInt64.lt_iff_toNat_lt, UInt64.toNat_zero] at ticks
  rw [UInt64.le_iff_toNat_le] at faster
  rw [make, toNat_max, UInt64.toNat_div, toNat_max]
  show max (hz.toNat / max rate.toNat 1) 1 = 1
  have few : hz.toNat / max rate.toNat 1 ≤ 1 := by
    rw [Nat.max_eq_left (by omega)]
    exact Nat.div_le_of_le_mul (by omega)
  omega

/-- From an empty bucket a packet can be pulled at the end of each packet time. -/
theorem follows_periodic {count : Nat} (paced : 0 < p.cyclesPerPacket.toNat)
    (room : 0 < p.maxTokens.toNat) (empty : p.tokens = 0) (brought : p.last = now)
    (fits : now.toNat + count * p.cyclesPerPacket.toNat < UInt64.size) :
    p.Follows now (Poll.periodic now p.cyclesPerPacket count) := by
  -- After each packet the bucket is empty again, and the packet time over is accounted for.
  induction count generalizing p now with
  | zero => trivial
  | succ count ih =>
    rw [Nat.add_mul, Nat.one_mul] at fits
    have keeps : p.Keeps now now := by
      refine ⟨paced, ?_, UInt64.le_of_eq brought.symm, UInt64.le_of_eq brought⟩
      rw [empty]
      exact Nat.zero_le _
    have next : (now + p.cyclesPerPacket).toNat = now.toNat + p.cyclesPerPacket.toNat :=
      toNat_add_of_fits (Nat.lt_of_le_of_lt (by omega) fits)
    have ahead : now ≤ now + p.cyclesPerPacket := by
      rw [UInt64.le_iff_toNat_le]
      omega
    -- One packet time has passed since the last packet.
    have one : p.earned (now + p.cyclesPerPacket) = 1 := by
      rw [earned, next, brought, Nat.add_sub_cancel_left, Nat.div_self paced]
    have tokens : (p.refill (now + p.cyclesPerPacket)).tokens.toNat = 1 := by
      rw [tokens_refill keeps ahead, one, empty]
      show min ((0 + 1) % UInt64.size) p.maxTokens.toNat = 1
      exact Nat.min_eq_left room
    have last : (p.refill (now + p.cyclesPerPacket)).last = now + p.cyclesPerPacket := by
      rw [← UInt64.toNat_inj, last_refill keeps ahead, one, brought, next, Nat.one_mul, ite_self]
    have allowed : 1 ≤ (p.allowance (now + p.cyclesPerPacket) 1).1 := by
      show 1 ≤ min 1 (p.refill (now + p.cyclesPerPacket)).tokens.toNat
      rw [tokens, Nat.min_self]
    refine ⟨ahead, allowed, ?_⟩
    -- The one token is spent at once.
    have spent := @tokens_poll p ⟨now + p.cyclesPerPacket, 1, 1⟩ allowed
    have same : (p.poll ⟨now + p.cyclesPerPacket, 1, 1⟩).cyclesPerPacket = p.cyclesPerPacket :=
      p.cyclesPerPacket_refill _
    have onward := @ih (p.poll ⟨now + p.cyclesPerPacket, 1, 1⟩) (now + p.cyclesPerPacket)
    rw [same] at onward
    refine onward paced ?_ ?_ last (by omega)
    · show 0 < (p.refill _).maxTokens.toNat
      rwa [maxTokens_refill]
    · rw [← UInt64.toNat_inj, UInt64.toNat_zero]
      show (p.poll _).tokens.toNat = 0
      simp only at spent
      omega

/-- No poll of a run comes before its beginning. -/
theorem Follows.since_le {since : UInt64} {polls : List Poll} (follows : p.Follows since polls) :
    ∀ x ∈ polls, since ≤ x.now := by
  -- The run is cut at the poll.
  intro x there
  obtain ⟨before, behind, rfl⟩ := List.append_of_mem there
  obtain ⟨middle, ahead, -, -, order, -⟩ := follows.split
  exact UInt64.le_trans ahead order

/-- A run cannot last longer than its clock can count. -/
theorem Follows.span_le {since : UInt64} {polls window : List Poll}
    (follows : p.Follows since polls) (within : window <:+: polls) :
    Poll.span window ≤ UInt64.size - 1 - since.toNat := by
  -- The window ends at a word and does not begin before the run.
  cases window with
  | nil => exact Nat.zero_le _
  | cons first rest =>
    have start := follows.since_le first (within.subset List.mem_cons_self)
    have size := (rest.getLastD first).now.toNat_lt
    rw [UInt64.le_iff_toNat_le] at start
    rw [Poll.span]
    show _ ≤ 2 ^ 64 - 1 - _
    omega

/-- Over some packet times the rounding of a packet time gains as much as a packet when what it leaves
out adds up to that much. -/
theorem gains_iff (rate hz count : Nat) :
    hz ≤ count * (hz % rate) ↔ count * (hz / rate) * rate + hz ≤ hz * count := by
  -- The frequency is split into whole packet times and what is left out.
  have whole : hz * count = count * (hz / rate) * rate + count * (hz % rate) := by
    calc hz * count
        = count * (rate * (hz / rate) + hz % rate) := by rw [Nat.div_add_mod, Nat.mul_comm]
      _ = count * (hz / rate) * rate + count * (hz % rate) := by ring
  omega

/-- What is earned in a number of cycles is what the rate has for them, as long as the rounding of a
packet time does not gain a packet. -/
theorem div_le_ceilDiv {rate hz cycles limit : Nat} (ticks : 0 < hz) (within : cycles ≤ limit)
    (even : limit / (hz / rate) * (hz % rate) < hz) :
    cycles / (hz / rate) ≤ (cycles * rate) ⌈/⌉ hz := by
  -- Were it not, the rounding of the packet times in these cycles would have gained a packet.
  by_contra short
  rw [Nat.not_le] at short
  have few : (cycles * rate) ⌈/⌉ hz ≤ cycles / (hz / rate) - 1 := by omega
  rw [ceilDiv_le_iff_le_mul ticks, Nat.mul_sub, Nat.mul_one] at few
  have paid : cycles / (hz / rate) * (hz / rate) * rate ≤ cycles * rate :=
    Nat.mul_le_mul_right _ (Nat.div_mul_le_self ..)
  have some : hz * 1 ≤ hz * (cycles / (hz / rate)) := Nat.mul_le_mul_left _ (by omega)
  have gained := (gains_iff rate hz (cycles / (hz / rate))).mpr (by omega)
  have most : cycles / (hz / rate) * (hz % rate) ≤ limit / (hz / rate) * (hz % rate) :=
    Nat.mul_le_mul_right _ (Nat.div_le_div_right within)
  omega

/-- The run that takes the most out of a pacer: one burst at once, and then each packet as soon as it
is earned. -/
def greedy (now : UInt64) (burst : Nat) (period : UInt64) (count : Nat) : List Poll :=
  ⟨now, burst, burst⟩ :: Poll.periodic now period count

/-- A new pacer lets the greediest run through. -/
theorem follows_greedy {count : Nat} (some : 0 < burst) (fits : burst < UInt64.size)
    (inTime : now.toNat + count * (make rate hz burst now).cyclesPerPacket.toNat < UInt64.size) :
    (make rate hz burst now).Follows now
      (greedy now burst (make rate hz burst now).cyclesPerPacket count) := by
  -- The first poll empties the bucket, and each later one takes the token of its period.
  have keeps := make_keeps rate hz burst now
  have one : max burst 1 = burst := Nat.max_eq_left some
  have full : (make rate hz burst now).maxTokens.toNat = burst := by
    rw [maxTokens_make (by rwa [one]), one]
  have none : (make rate hz burst now).earned now = 0 := by
    show (now.toNat - now.toNat) / _ = 0
    rw [Nat.sub_self, Nat.zero_div]
  have tokens : ((make rate hz burst now).refill now).tokens.toNat = burst := by
    rw [tokens_refill keeps (UInt64.le_refl _), none]
    show min (((make rate hz burst now).maxTokens.toNat + 0) % UInt64.size) _ = burst
    rw [full, Nat.add_zero, Nat.mod_eq_of_lt fits, Nat.min_self]
  have allowed : burst ≤ ((make rate hz burst now).allowance now burst).1 := by
    show burst ≤ min burst ((make rate hz burst now).refill now).tokens.toNat
    rw [tokens, Nat.min_self]
  have spent := @tokens_poll (make rate hz burst now) ⟨now, burst, burst⟩ allowed
  have same : ((make rate hz burst now).poll ⟨now, burst, burst⟩).cyclesPerPacket =
      (make rate hz burst now).cyclesPerPacket := cyclesPerPacket_refill ..
  have onward := @follows_periodic ((make rate hz burst now).poll ⟨now, burst, burst⟩) now count
  rw [same] at onward
  refine ⟨UInt64.le_refl _, allowed, onward keeps.paced ?_ ?_ ?_ inTime⟩
  · show 0 < ((make rate hz burst now).refill now).maxTokens.toNat
    rwa [maxTokens_refill, full]
  · rw [← UInt64.toNat_inj, UInt64.toNat_zero]
    simp only at spent
    omega
  · rw [← UInt64.toNat_inj]
    show ((make rate hz burst now).refill now).last.toNat = now.toNat
    rw [last_refill keeps (UInt64.le_refl _), tokens, full, if_pos rfl]

/-- The greediest run pulls one burst and a packet for each packet time that it lasts. -/
theorem greedy_taken {period : UInt64} {count : Nat}
    (inTime : now.toNat + count * period.toNat < UInt64.size) :
    Poll.total (greedy now burst period count) = burst + count ∧
      Poll.span (greedy now burst period count) = count * period.toNat := by
  -- A burst is pulled at once, and then one packet in each period.
  constructor
  · calc Poll.total (greedy now burst period count)
        = burst + Poll.total (Poll.periodic now period count) := List.sum_cons
      _ = burst + count := by rw [Poll.total_periodic]
  · have last := @Poll.last_periodic now period count ⟨now, burst, burst⟩ rfl inTime
    rw [greedy, Poll.span, last, Nat.add_sub_cancel_left]

/-- A pacer keeps to its rate, in every window of every run of polls, exactly when the rate is at
least the frequency of the clock, or when what the rounding of a packet time down to whole cycles
leaves out does not add up to a packet before the clock has counted to its end. -/
theorem rate_respected_iff (paced : 0 < rate) (ticks : 0 < hz) (some : 0 < burst)
    (fits : burst < UInt64.size) :
    (∀ polls, (make rate hz burst now).Follows now polls → Poll.Respects polls rate hz burst) ↔
      hz ≤ rate ∨
        (UInt64.size - 1 - now.toNat) / (hz.toNat / rate.toNat) * (hz.toNat % rate.toNat) <
          hz.toNat := by
  -- In one direction the greediest run decides, and in the other every window is within the bucket's
  -- bound.
  have positive : 0 < hz.toNat := UInt64.lt_iff_toNat_lt.mp ticks
  constructor
  · -- Otherwise the greediest run to the end of the clock pulls a packet too many.
    intro respects
    by_contra uneven
    rw [not_or, Nat.not_lt] at uneven
    obtain ⟨slower, gained⟩ := uneven
    have slower : rate ≤ hz := by
      rw [UInt64.le_iff_toNat_le] at slower ⊢
      omega
    have period := cyclesPerPacket_make paced slower burst now
    generalize counted : (UInt64.size - 1 - now.toNat) / (hz.toNat / rate.toNat) = count at gained
    have inTime : now.toNat + count * (make rate hz burst now).cyclesPerPacket.toNat <
        UInt64.size := by
      have size : now.toNat < UInt64.size := now.toNat_lt
      have most : count * (hz.toNat / rate.toNat) ≤ UInt64.size - 1 - now.toNat := by
        rw [← counted]
        exact Nat.div_mul_le_self ..
      rw [period]
      omega
    obtain ⟨total, span⟩ := @greedy_taken now burst _ count inTime
    have kept := respects _ (follows_greedy some fits inTime) _ List.infix_rfl _ (Nat.le_of_eq span)
    have some : 0 < count := by
      refine Nat.pos_of_ne_zero ?_
      rintro rfl
      omega
    have late : (count * (hz.toNat / rate.toNat) * rate.toNat) ⌈/⌉ hz.toNat ≤ count - 1 := by
      rw [ceilDiv_le_iff_le_mul positive, Nat.mul_sub, Nat.mul_one]
      have more := (gains_iff rate.toNat hz.toNat count).mp gained
      omega
    rw [total, period] at kept
    omega
  · -- The bucket's own bound is in whole packet times, which the rounding does not stretch far enough.
    intro even polls follows window within cycles long
    have bound := total_window_le (make_keeps rate hz burst now) follows within
    have full := maxTokens_make_le rate hz burst now
    have earned : Poll.span window / (make rate hz burst now).cyclesPerPacket.toNat ≤
        (cycles * rate.toNat) ⌈/⌉ hz.toNat := by
      by_cases faster : hz ≤ rate
      · rw [cyclesPerPacket_make_fast ticks faster, Nat.div_one]
        refine Nat.le_of_mul_le_mul_left ?_ positive
        calc hz.toNat * Poll.span window
            ≤ rate.toNat * cycles := Nat.mul_le_mul (UInt64.le_iff_toNat_le.mp faster) long
          _ = cycles * rate.toNat := Nat.mul_comm ..
          _ ≤ hz.toNat * ((cycles * rate.toNat) ⌈/⌉ hz.toNat) := le_smul_ceilDiv positive
      · have slower : rate ≤ hz := by
          rw [UInt64.le_iff_toNat_le] at faster ⊢
          omega
        rw [cyclesPerPacket_make paced slower]
        calc Poll.span window / (hz.toNat / rate.toNat)
            ≤ (Poll.span window * rate.toNat) ⌈/⌉ hz.toNat :=
              div_le_ceilDiv positive (follows.span_le within) (even.resolve_left faster)
          _ ≤ (cycles * rate.toNat) ⌈/⌉ hz.toNat :=
              (gc_mul_ceilDiv positive).monotone_l (Nat.mul_le_mul_right _ long)
    omega

/-- A thousand packets a second are kept to on a clock of a megahertz, which they divide. -/
theorem rate_respected_even :
    (0 : UInt64) < 1000 ∧ (0 : UInt64) < 1000000 ∧ 0 < 32 ∧ 32 < UInt64.size ∧
      ∀ polls, (make 1000 1000000 32 0).Follows 0 polls →
        Poll.Respects polls 1000 1000000 32 :=
  ⟨by decide, by decide, by decide, by decide,
    (rate_respected_iff (by decide) (by decide) (by decide) (by decide)).mpr (Or.inr (by decide))⟩

/-- At six hundred thousand packets a second on the same clock a packet time is one cycle, so that a
thousand cycles after a burst let a thousand packets through and not six hundred. -/
theorem uneven_rate_exceeded :
    ∃ polls, (make 600000 1000000 1000 0).Follows 0 polls ∧
      ¬ Poll.Respects polls 600000 1000000 1000 := by
  -- A burst at once and a thousand packets after a thousand cycles are the run.
  refine ⟨[⟨0, 1000, 1000⟩, ⟨1000, 1000, 1000⟩],
    ⟨by decide, by decide, by decide, by decide, trivial⟩, ?_⟩
  intro respects
  have kept := respects _ List.infix_rfl 1000 (by decide)
  exact absurd kept (by decide)

end Pacer

end PacketPlane
