import Mathlib.Algebra.GroupWithZero.Nat
import Mathlib.Data.List.Infix
import PacketPlane.Time.Pacer

/-! Buckets: what a pacer earns between two moments, and what a run of polls gets out of it. -/

namespace PacketPlane

/-- One poll of a pacer: how many packets are wanted at a time, and how many are pulled then. -/
structure Poll where
  now : UInt64
  want : Nat
  pulled : Nat

namespace Poll

/-- The packets pulled in all of some polls. -/
def total (polls : List Poll) : Nat :=
  (polls.map pulled).sum

/-- The cycles from the first of some polls to the last. -/
def span : List Poll → Nat
  | [] => 0
  | first :: rest => (rest.getLastD first).now.toNat - first.now.toNat

end Poll

/-- The larger of two words is the larger of their values. -/
theorem toNat_max (a b : UInt64) : (max a b).toNat = max a.toNat b.toNat := by
  -- Words are compared as their values are.
  show (if a ≤ b then b else a).toNat = _
  by_cases order : a ≤ b
  · rw [if_pos order, Nat.max_eq_right (UInt64.le_iff_toNat_le.mp order)]
  · rw [if_neg order]
    rw [UInt64.le_iff_toNat_le] at order
    omega

/-- The smaller of two words is the smaller of their values. -/
theorem toNat_min (a b : UInt64) : (min a b).toNat = min a.toNat b.toNat := by
  -- Words are compared as their values are.
  show (if a ≤ b then a else b).toNat = _
  by_cases order : a ≤ b
  · rw [if_pos order, Nat.min_eq_left (UInt64.le_iff_toNat_le.mp order)]
  · rw [if_neg order]
    rw [UInt64.le_iff_toNat_le] at order
    omega

/-- A sum of words that fits into a word is the sum of their values. -/
theorem toNat_add_of_fits {a b : UInt64} (fits : a.toNat + b.toNat < UInt64.size) :
    (a + b).toNat = a.toNat + b.toNat := by
  -- Nothing is cut off.
  rw [UInt64.toNat_add]
  exact Nat.mod_eq_of_lt fits

namespace Pacer

/-- A pacer brought up to a time: tokens are earned, and a full bucket lets the time go. -/
def refill (p : Pacer) (now : UInt64) : Pacer :=
  (p.earn now).settle now

/-- A pacer after a poll. -/
def poll (p : Pacer) (x : Poll) : Pacer :=
  (p.allowance x.now x.want).2.consume x.pulled

/-- A pacer after polls. -/
def after (p : Pacer) (polls : List Poll) : Pacer :=
  polls.foldl poll p

/-- How many packets each poll is allowed. -/
def answers (p : Pacer) : List Poll → List Nat
  | [] => []
  | x :: rest => (p.allowance x.now x.want).1 :: (p.poll x).answers rest

/-- Polls that come in the order of their times, and that pull no more than they are allowed. -/
def Follows (p : Pacer) (since : UInt64) : List Poll → Prop
  | [] => True
  | x :: rest =>
    since ≤ x.now ∧ x.pulled ≤ (p.allowance x.now x.want).1 ∧ (p.poll x).Follows x.now rest

/-- A pacer between its beginning and a moment: the bucket holds at most one burst, and tokens were
earned up to some time in between. -/
structure Keeps (p : Pacer) (began now : UInt64) : Prop where
  paced : 0 < p.cyclesPerPacket.toNat
  bounded : p.tokens.toNat ≤ p.maxTokens.toNat
  began : began ≤ p.last
  past : p.last ≤ now

/-- Tokens that are earned up to a time. -/
def earned (p : Pacer) (now : UInt64) : Nat :=
  (now.toNat - p.last.toNat) / p.cyclesPerPacket.toNat

/-- The most tokens that a pacer can have given out up to a time. -/
def due (p : Pacer) (now : UInt64) : Nat :=
  p.tokens.toNat + p.earned now

variable {p q : Pacer} {began since now later : UInt64} {polls : List Poll} {x : Poll}

/-- A new pacer has a full bucket at its beginning. -/
theorem make_keeps (rate hz : UInt64) (burst : Nat) (now : UInt64) :
    (make rate hz burst now).Keeps now now := by
  -- A packet takes a cycle at least, and no time has gone by.
  refine ⟨?_, Nat.le_refl _, UInt64.le_refl _, UInt64.le_refl _⟩
  rw [make, toNat_max]
  exact Nat.le_max_right _ 1

/-- A burst is at least one packet, and as large as was asked for when that fits into a word. -/
theorem maxTokens_make {rate hz : UInt64} {burst : Nat} (fits : max burst 1 < UInt64.size)
    (now : UInt64) : (make rate hz burst now).maxTokens.toNat = max burst 1 :=
  UInt64.toNat_ofNat_of_lt fits

/-- A bucket never holds more than one burst. -/
theorem maxTokens_make_le (rate hz : UInt64) (burst : Nat) (now : UInt64) :
    (make rate hz burst now).maxTokens.toNat ≤ max burst 1 := by
  -- Cutting a number to a word never makes it larger.
  rw [make, UInt64.toNat_ofNat']
  exact Nat.mod_le _ _

/-- Earning tokens leaves the time that one takes. -/
@[simp] theorem cyclesPerPacket_refill (p : Pacer) (now : UInt64) :
    (p.refill now).cyclesPerPacket = p.cyclesPerPacket := by
  -- Neither earning nor settling touches it.
  rw [refill, settle, earn]
  split <;> split <;> rfl

/-- Earning tokens leaves how many the bucket holds. -/
@[simp] theorem maxTokens_refill (p : Pacer) (now : UInt64) :
    (p.refill now).maxTokens = p.maxTokens := by
  -- Neither earning nor settling touches it.
  rw [refill, settle, earn]
  split <;> split <;> rfl

/-- What the clock moved since tokens were last earned. -/
theorem toNat_elapsed (past : p.last ≤ now) :
    (p.elapsed now).toNat = now.toNat - p.last.toNat := by
  -- The clock has not gone back, so the difference does not wrap.
  rw [elapsed, if_pos past, UInt64.toNat_sub_of_le _ _ past]

/-- Earning pays whole packet times out in tokens, and keeps the rest of the time. -/
theorem earn_eq (keeps : p.Keeps began since) (order : since ≤ now) :
    (p.earn now).tokens.toNat =
        min ((p.tokens.toNat + p.earned now) % UInt64.size) p.maxTokens.toNat ∧
      (p.earn now).last.toNat = p.last.toNat + p.earned now * p.cyclesPerPacket.toNat := by
  have past : p.last ≤ now := UInt64.le_trans keeps.past order
  have paid : (p.elapsed now / p.cyclesPerPacket).toNat = p.earned now := by
    rw [UInt64.toNat_div, toNat_elapsed past, earned]
  rw [earn]
  by_cases some : p.elapsed now / p.cyclesPerPacket > 0
  · -- What is paid out lies within the time that went by, so the words cannot overflow.
    rw [if_pos some]
    have within : p.earned now * p.cyclesPerPacket.toNat ≤ now.toNat - p.last.toNat :=
      Nat.div_mul_le_self ..
    have order := UInt64.le_iff_toNat_le.mp past
    have size := now.toNat_lt
    constructor
    · rw [toNat_min, UInt64.toNat_add, paid]
    · rw [UInt64.toNat_add, UInt64.toNat_mul, paid, Nat.mod_eq_of_lt (by omega),
        Nat.mod_eq_of_lt (by omega)]
  · rw [if_neg some]
    have none : p.earned now = 0 := by
      rw [gt_iff_lt, UInt64.lt_iff_toNat_lt, paid, Nat.not_lt] at some
      exact Nat.le_zero.mp some
    rw [none, Nat.add_zero, Nat.zero_mul, Nat.add_zero, Nat.mod_eq_of_lt p.tokens.toNat_lt,
      Nat.min_eq_left keeps.bounded]
    exact ⟨rfl, rfl⟩

/-- A refilled bucket holds what was earned, within one burst. -/
theorem tokens_refill (keeps : p.Keeps began since) (order : since ≤ now) :
    (p.refill now).tokens.toNat =
      min ((p.tokens.toNat + p.earned now) % UInt64.size) p.maxTokens.toNat := by
  -- Settling changes when tokens were last earned, and not how many there are.
  rw [← (earn_eq keeps order).1, refill, settle]
  split <;> rfl

/-- A refilled bucket has let all time go when it is full, and otherwise keeps what was not paid. -/
theorem last_refill (keeps : p.Keeps began since) (order : since ≤ now) :
    (p.refill now).last.toNat =
      if (p.refill now).tokens.toNat = p.maxTokens.toNat then now.toNat
      else p.last.toNat + p.earned now * p.cyclesPerPacket.toNat := by
  -- Whether the bucket is full is asked after tokens were added.
  have past := UInt64.le_iff_toNat_le.mp (UInt64.le_trans keeps.past order)
  have within : p.earned now * p.cyclesPerPacket.toNat ≤ now.toNat - p.last.toNat :=
    Nat.div_mul_le_self ..
  have same : (p.refill now).tokens = (p.earn now).tokens := by
    rw [refill, settle]
    split <;> rfl
  have burst : (p.earn now).maxTokens = p.maxTokens := by
    rw [earn]
    split <;> rfl
  rw [same, refill, settle, burst]
  by_cases full : (p.earn now).tokens = p.maxTokens
  · rw [if_pos full, if_pos (congrArg UInt64.toNat full)]
    show (max (p.earn now).last now).toNat = now.toNat
    rw [toNat_max, (earn_eq keeps order).2]
    omega
  · rw [if_neg full, if_neg fun same => full (UInt64.toNat_inj.mp same), (earn_eq keeps order).2]

/-- A refilled bucket has earned its tokens up to some time not after the present. -/
theorem Keeps.refill (keeps : p.Keeps began since) (order : since ≤ now) :
    (p.refill now).Keeps began now := by
  -- Whole packet times are paid out of the time that went by, so the rest is still in the past.
  have past := UInt64.le_iff_toNat_le.mp (UInt64.le_trans keeps.past order)
  have start := UInt64.le_iff_toNat_le.mp keeps.began
  have within : p.earned now * p.cyclesPerPacket.toNat ≤ now.toNat - p.last.toNat :=
    Nat.div_mul_le_self ..
  have last := last_refill keeps order
  refine ⟨?_, ?_, UInt64.le_iff_toNat_le.mpr ?_, UInt64.le_iff_toNat_le.mpr ?_⟩
  · rw [cyclesPerPacket_refill]
    exact keeps.paced
  · rw [tokens_refill keeps order, maxTokens_refill]
    exact Nat.min_le_right ..
  · rw [last]
    split <;> omega
  · rw [last]
    split <;> omega

/-- Tokens that were earned on the way are not earned again. -/
theorem due_refill_le (keeps : p.Keeps began since) (order : since ≤ now) (ahead : now ≤ later) :
    (p.refill now).due later ≤ p.due later := by
  -- What is earned on the way is taken off the time that is left, and a full bucket loses some.
  have tokens : (p.refill now).tokens.toNat ≤ p.tokens.toNat + p.earned now := by
    rw [tokens_refill keeps order]
    exact (Nat.min_le_left ..).trans (Nat.mod_le ..)
  have within : p.earned now * p.cyclesPerPacket.toNat ≤ now.toNat - p.last.toNat :=
    Nat.div_mul_le_self ..
  have ahead := UInt64.le_iff_toNat_le.mp ahead
  have past := UInt64.le_iff_toNat_le.mp (UInt64.le_trans keeps.past order)
  have last : p.last.toNat + p.earned now * p.cyclesPerPacket.toNat ≤ (p.refill now).last.toNat := by
    rw [last_refill keeps order]
    split <;> omega
  have fewer : (p.refill now).earned later ≤ p.earned later - p.earned now := by
    rw [earned, cyclesPerPacket_refill]
    calc (later.toNat - (p.refill now).last.toNat) / p.cyclesPerPacket.toNat
        ≤ (later.toNat - p.last.toNat - p.cyclesPerPacket.toNat * p.earned now) /
            p.cyclesPerPacket.toNat := by
          refine Nat.div_le_div_right ?_
          rw [Nat.mul_comm]
          omega
      _ = p.earned later - p.earned now := Nat.sub_mul_div ..
  have more : p.earned now ≤ p.earned later := by
    refine Nat.div_le_div_right ?_
    omega
  rw [due, due]
  omega

/-- Whatever happened before, a pacer gives out no more than one burst and what it earns from now
on. -/
theorem due_refill_le_burst (keeps : p.Keeps began since) (order : since ≤ now) (ahead : now ≤ later) :
    (p.refill now).due later ≤
      p.maxTokens.toNat + (later.toNat - now.toNat) / p.cyclesPerPacket.toNat := by
  -- A full bucket starts from the present, and any other has less than a packet time in arrears.
  have ahead := UInt64.le_iff_toNat_le.mp ahead
  have past := UInt64.le_iff_toNat_le.mp (UInt64.le_trans keeps.past order)
  have bounded := (keeps.refill order).bounded
  rw [maxTokens_refill] at bounded
  have last := last_refill keeps order
  rw [due, earned, cyclesPerPacket_refill, last]
  by_cases full : (p.refill now).tokens.toNat = p.maxTokens.toNat
  · rw [if_pos full, full]
  · -- A bucket that is not full has room for the token that the rest of the time may yet earn.
    rw [if_neg full]
    have rest : now.toNat - p.last.toNat <
        p.earned now * p.cyclesPerPacket.toNat + p.cyclesPerPacket.toNat := by
      rw [earned, Nat.mul_comm]
      exact Nat.lt_mul_div_succ _ keeps.paced
    have one : (later.toNat - (p.last.toNat + p.earned now * p.cyclesPerPacket.toNat)) /
        p.cyclesPerPacket.toNat ≤ (later.toNat - now.toNat) / p.cyclesPerPacket.toNat + 1 := by
      rw [← Nat.add_div_right _ keeps.paced]
      refine Nat.div_le_div_right ?_
      omega
    omega

/-- A poll that pulls no more than it is allowed spends its tokens to the last one. -/
theorem tokens_poll (allowed : x.pulled ≤ (p.allowance x.now x.want).1) :
    (p.poll x).tokens.toNat + x.pulled = (p.refill x.now).tokens.toNat := by
  -- A poll is allowed no more than the tokens, so taking them off does not go below zero.
  have most : x.pulled ≤ (p.refill x.now).tokens.toNat := allowed.trans (Nat.min_le_right ..)
  show (UInt64.ofNat ((p.refill x.now).tokens.toNat - x.pulled)).toNat + x.pulled = _
  have size := (p.refill x.now).tokens.toNat_lt
  rw [UInt64.toNat_ofNat', Nat.mod_eq_of_lt (by omega)]
  omega

/-- A pacer goes on keeping its bounds after a poll. -/
theorem Keeps.poll (keeps : p.Keeps began since) (order : since ≤ x.now)
    (allowed : x.pulled ≤ (p.allowance x.now x.want).1) : (p.poll x).Keeps began x.now := by
  -- Spending tokens leaves the time when they were earned.
  have filled := keeps.refill order
  refine ⟨filled.paced, ?_, filled.began, filled.past⟩
  have spent := tokens_poll allowed
  exact (show (p.poll x).tokens.toNat ≤ (p.refill x.now).tokens.toNat by omega).trans filled.bounded

/-- What a poll pulls is no longer due. -/
theorem due_poll (allowed : x.pulled ≤ (p.allowance x.now x.want).1) (later : UInt64) :
    x.pulled + (p.poll x).due later = (p.refill x.now).due later := by
  -- Spending tokens leaves what is still to be earned.
  have same : (p.poll x).earned later = (p.refill x.now).earned later := rfl
  have spent := tokens_poll allowed
  rw [due, due, same]
  omega

/-- Polls leave the time that a token takes. -/
@[simp] theorem cyclesPerPacket_after (p : Pacer) (polls : List Poll) :
    (p.after polls).cyclesPerPacket = p.cyclesPerPacket := by
  -- By induction on the polls.
  induction polls generalizing p with
  | nil => rfl
  | cons x rest ih => exact (ih (p.poll x)).trans (p.cyclesPerPacket_refill x.now)

/-- Polls leave how many tokens the bucket holds. -/
@[simp] theorem maxTokens_after (p : Pacer) (polls : List Poll) :
    (p.after polls).maxTokens = p.maxTokens := by
  -- By induction on the polls.
  induction polls generalizing p with
  | nil => rfl
  | cons x rest ih => exact (ih (p.poll x)).trans (p.maxTokens_refill x.now)

/-- Some polls after others, as one run. -/
theorem after_append (p : Pacer) (first second : List Poll) :
    p.after (first ++ second) = (p.after first).after second :=
  List.foldl_append

/-- A run of polls is one run after another. -/
theorem Follows.split {first second : List Poll} (follows : p.Follows since (first ++ second)) :
    ∃ middle, since ≤ middle ∧ (∀ x ∈ first, x.now ≤ middle) ∧ p.Follows since first ∧
      (p.after first).Follows middle second := by
  -- By induction on the first polls: the time in the middle is that of the last of them.
  induction first generalizing p since with
  | nil => exact ⟨since, UInt64.le_refl _, by simp, trivial, follows⟩
  | cons x rest ih =>
    obtain ⟨order, allowed, follows⟩ := follows
    obtain ⟨middle, ahead, early, before, behind⟩ := ih follows
    refine ⟨middle, UInt64.le_trans order ahead, ?_, ⟨order, allowed, before⟩, behind⟩
    intro y there
    obtain rfl | there := List.mem_cons.mp there
    · exact ahead
    · exact early y there

/-- No poll of a run comes after its last one. -/
theorem Follows.le_last {rest : List Poll} (follows : p.Follows since (x :: rest)) :
    ∀ y ∈ x :: rest, y.now ≤ (rest.getLastD x).now := by
  -- By induction on the polls, each of which is followed by later ones.
  induction rest generalizing p since x with
  | nil =>
    intro y there
    rw [List.mem_singleton.mp there]
    exact UInt64.le_refl _
  | cons z rest ih =>
    have behind := ih follows.2.2
    rw [List.getLastD_cons]
    intro y there
    obtain rfl | there := List.mem_cons.mp there
    · exact UInt64.le_trans follows.2.2.1 (behind z List.mem_cons_self)
    · exact behind y there

/-- A pacer keeps its bounds along a run of polls. -/
theorem Keeps.after (keeps : p.Keeps began since) (follows : p.Follows since polls)
    (ahead : since ≤ later) (early : ∀ x ∈ polls, x.now ≤ later) :
    (p.after polls).Keeps began later := by
  -- By induction on the polls, from each of which the pacer goes on at its time.
  induction polls generalizing p since with
  | nil => exact ⟨keeps.paced, keeps.bounded, keeps.began, UInt64.le_trans keeps.past ahead⟩
  | cons x rest ih =>
    obtain ⟨order, allowed, follows⟩ := follows
    exact ih (keeps.poll order allowed) follows (early x List.mem_cons_self)
      fun y there => early y (List.mem_cons_of_mem x there)

/-- A run of polls pulls no more than what is due when it ends. -/
theorem total_le_due (keeps : p.Keeps began since) (follows : p.Follows since polls)
    (early : ∀ x ∈ polls, x.now ≤ later) : Poll.total polls ≤ p.due later := by
  -- What is due until the end pays for each poll in turn, and refilling never adds to it.
  induction polls generalizing p since with
  | nil => exact Nat.zero_le _
  | cons x rest ih =>
    obtain ⟨order, allowed, follows⟩ := follows
    have behind := ih (keeps.poll order allowed) follows
      fun y there => early y (List.mem_cons_of_mem x there)
    calc Poll.total (x :: rest)
        = x.pulled + Poll.total rest := List.sum_cons
      _ ≤ x.pulled + (p.poll x).due later := Nat.add_le_add_left behind _
      _ = (p.refill x.now).due later := due_poll allowed later
      _ ≤ p.due later := due_refill_le keeps order (early x List.mem_cons_self)

/-- A run of polls pulls no more than one burst and what is earned from its first poll to its last. -/
theorem total_le_span (keeps : p.Keeps began since) (follows : p.Follows since polls) :
    Poll.total polls ≤ p.maxTokens.toNat + Poll.span polls / p.cyclesPerPacket.toNat := by
  cases polls with
  | nil => exact Nat.zero_le _
  | cons x rest =>
    -- The first poll begins the span, whatever was earned or saved up before it.
    have early := follows.le_last
    obtain ⟨order, allowed, follows⟩ := follows
    have behind := total_le_due (keeps.poll order allowed) follows
      fun y there => early y (List.mem_cons_of_mem x there)
    calc Poll.total (x :: rest)
        = x.pulled + Poll.total rest := List.sum_cons
      _ ≤ x.pulled + (p.poll x).due (rest.getLastD x).now := Nat.add_le_add_left behind _
      _ = (p.refill x.now).due (rest.getLastD x).now := due_poll allowed _
      _ ≤ _ := due_refill_le_burst keeps order (early x List.mem_cons_self)

/-- The same holds of every window of a run. -/
theorem total_window_le {window : List Poll} (keeps : p.Keeps began since)
    (follows : p.Follows since polls) (within : window <:+: polls) :
    Poll.total window ≤ p.maxTokens.toNat + Poll.span window / p.cyclesPerPacket.toNat := by
  -- Whatever came before the window leaves a pacer that keeps its bounds.
  obtain ⟨before, behind, rfl⟩ := within
  obtain ⟨-, -, -, follows, -⟩ := follows.split
  obtain ⟨middle, ahead, early, first, second⟩ := follows.split
  have bound := total_le_span (keeps.after first ahead early) second
  rwa [maxTokens_after, cyclesPerPacket_after] at bound

/-- With room for all tokens in a word, a refilled bucket holds all that was earned, within one
burst. -/
theorem tokens_refill_of_room (keeps : p.Keeps began since) (order : since ≤ now)
    (room : p.maxTokens.toNat + (now.toNat - began.toNat) < UInt64.size) :
    (p.refill now).tokens.toNat = min (p.tokens.toNat + p.earned now) p.maxTokens.toNat := by
  -- What is earned is at most the time that went by, so the sum does not wrap.
  have start := UInt64.le_iff_toNat_le.mp keeps.began
  have bounded := keeps.bounded
  have few : p.earned now ≤ now.toNat - p.last.toNat := Nat.div_le_self ..
  rw [tokens_refill keeps order, Nat.mod_eq_of_lt (by omega)]

/-- A stop on the way makes no difference to a refilled bucket: no part of a token is lost, and none
is saved up beyond a full bucket. -/
theorem refill_refill (keeps : p.Keeps began since) (order : since ≤ now) (ahead : now ≤ later)
    (room : p.maxTokens.toNat + (later.toNat - began.toNat) < UInt64.size) :
    (p.refill now).refill later = p.refill later := by
  -- What is not paid at the stop is carried over by the time when tokens were last earned.
  have past := UInt64.le_iff_toNat_le.mp (UInt64.le_trans keeps.past order)
  have onward := UInt64.le_iff_toNat_le.mp ahead
  have filled := keeps.refill order
  have through := UInt64.le_trans order ahead
  have first := tokens_refill_of_room keeps order (by omega)
  have second := tokens_refill_of_room filled ahead (by rwa [maxTokens_refill])
  have direct := tokens_refill_of_room keeps through room
  have firstLast := last_refill keeps order
  have secondLast := last_refill filled ahead
  have directLast := last_refill keeps through
  rw [maxTokens_refill] at second secondLast
  rw [cyclesPerPacket_refill] at secondLast
  have more : p.earned now ≤ p.earned later := Nat.div_le_div_right (by omega)
  have alike : ((p.refill now).refill later).tokens.toNat = (p.refill later).tokens.toNat ∧
      ((p.refill now).refill later).last.toNat = (p.refill later).last.toNat := by
    by_cases full : (p.refill now).tokens.toNat = p.maxTokens.toNat
    · -- A bucket that is full on the way is full at the end.
      have after : ((p.refill now).refill later).tokens.toNat = p.maxTokens.toNat := by omega
      have same : (p.refill later).tokens.toNat = p.maxTokens.toNat := by omega
      rw [secondLast, directLast, if_pos after, if_pos same]
      exact ⟨after.trans same.symm, rfl⟩
    · -- Otherwise the rest of the time is kept, and what is earned comes in two parts.
      rw [if_neg full] at firstLast
      have rest : (p.refill now).earned later = p.earned later - p.earned now := by
        rw [earned, cyclesPerPacket_refill, firstLast, ← Nat.sub_sub,
          Nat.mul_comm (p.earned now), Nat.sub_mul_div]
        rfl
      have same : ((p.refill now).refill later).tokens.toNat = (p.refill later).tokens.toNat := by
        omega
      refine ⟨same, ?_⟩
      rw [secondLast, directLast, same, firstLast, rest, Nat.add_assoc, ← Nat.add_mul,
        Nat.add_sub_of_le more]
  obtain ⟨tokens, last⟩ := alike
  have split : ∀ q : Pacer, q = ⟨q.cyclesPerPacket, q.maxTokens, q.tokens, q.last⟩ := fun _ => rfl
  rw [split ((p.refill now).refill later), split (p.refill later), UInt64.toNat_inj.mp tokens,
    UInt64.toNat_inj.mp last]
  simp only [cyclesPerPacket_refill, maxTokens_refill]

/-- A poll that pulls nothing only brings the pacer up to its time. -/
theorem poll_of_idle (p : Pacer) (idle : x.pulled = 0) : p.poll x = p.refill x.now := by
  -- Nothing is taken off the tokens.
  show { p.refill x.now with tokens := UInt64.ofNat ((p.refill x.now).tokens.toNat - x.pulled) } = _
  rw [idle, Nat.sub_zero, UInt64.ofNat_toNat]

/-- Polls that pull nothing make no difference to what the bucket holds later. -/
theorem refill_after_idle (keeps : p.Keeps began since) (follows : p.Follows since polls)
    (idle : ∀ y ∈ polls, y.pulled = 0 ∧ y.now ≤ later)
    (room : p.maxTokens.toNat + (later.toNat - began.toNat) < UInt64.size) :
    (p.after polls).refill later = p.refill later := by
  -- The first idle poll is a stop on the way, and the later ones are idle from there.
  induction polls generalizing p since with
  | nil => rfl
  | cons y rest ih =>
    obtain ⟨order, allowed, follows⟩ := follows
    obtain ⟨none, early⟩ := idle y List.mem_cons_self
    have only := p.poll_of_idle none
    calc ((p.poll y).after rest).refill later
        = (p.poll y).refill later := by
          refine ih (keeps.poll order allowed) follows ?_ ?_
          · exact fun z there => idle z (List.mem_cons_of_mem y there)
          · rwa [only, maxTokens_refill]
      _ = (p.refill y.now).refill later := by rw [only]
      _ = p.refill later := refill_refill keeps order early room

/-- Pacers that agree once they are refilled are the same to a poll. -/
theorem allowance_congr (same : p.refill now = q.refill now) (want : Nat) :
    p.allowance now want = q.allowance now want := by
  -- An allowance is read off the refilled pacer.
  show (min want (p.refill now).tokens.toNat, p.refill now) = _
  rw [same]
  rfl

/-- A token bucket is exact. Take any run of polls of a new pacer, each at a time not before the one
ahead of it and pulling no more than it is allowed. In every window of the run the packets pulled are
at most one burst and what is earned from the first poll of the window to the last. At every poll the
bucket holds at most one burst, tokens were earned up to a time that is past, and what is pulled is
spent to the last token. And as long as one burst and the time that went by fit into a word together,
further polls in between that pull nothing change neither a later answer nor a later state. -/
theorem bucket_exact {rate hz now : UInt64} {burst : Nat} {polls : List Poll}
    (follows : (make rate hz burst now).Follows now polls) :
    let start := make rate hz burst now
    (∀ window, window <:+: polls →
      Poll.total window ≤
        max burst 1 + Poll.span window / start.cyclesPerPacket.toNat) ∧
    ∀ earlier x later, polls = earlier ++ x :: later →
      let p := start.after earlier
      let q := (p.allowance x.now x.want).2
      (q.tokens.toNat ≤ max burst 1 ∧ q.last ≤ x.now ∧ (p.poll x).last = q.last ∧
        (p.poll x).tokens.toNat + x.pulled = q.tokens.toNat) ∧
      (max burst 1 + (x.now.toNat - now.toNat) < UInt64.size →
        ∀ idle, start.Follows now (earlier ++ idle) →
          (∀ y ∈ idle, y.pulled = 0 ∧ y.now ≤ x.now) →
          (start.after (earlier ++ idle)).answers (x :: later) = p.answers (x :: later) ∧
          ∀ more, start.after (earlier ++ idle ++ x :: more) = start.after (earlier ++ x :: more)) := by
  -- The window is cut out of the run, and idle polls are refills that the next one makes good.
  have keeps := make_keeps rate hz burst now
  have few := maxTokens_make_le rate hz burst now
  intro start
  refine ⟨?_, ?_⟩
  · intro window within
    exact (total_window_le keeps follows within).trans (Nat.add_le_add_right few _)
  · rintro earlier x later rfl p q
    obtain ⟨middle, ahead, early, first, order, allowed, -⟩ := follows.split
    have reached : p.Keeps now middle := keeps.after first ahead early
    have filled : q.Keeps now x.now := reached.refill order
    refine ⟨⟨?_, filled.past, rfl, tokens_poll allowed⟩, ?_⟩
    · refine filled.bounded.trans (Nat.le_trans (Nat.le_of_eq ?_) few)
      show ((p.refill x.now).maxTokens).toNat = start.maxTokens.toNat
      rw [maxTokens_refill, maxTokens_after]
    · -- The idle polls leave what the next poll refills to, and from there both runs are one.
      intro room idle paused quiet
      obtain ⟨resumed, onward, soon, again, waiting⟩ := paused.split
      have full : p.maxTokens.toNat ≤ max burst 1 := by rwa [maxTokens_after]
      have alike : (p.after idle).refill x.now = p.refill x.now :=
        refill_after_idle (keeps.after again onward soon) waiting quiet (by omega)
      have asked := allowance_congr alike x.want
      have polled : (p.after idle).poll x = p.poll x := by rw [poll, asked, ← poll]
      constructor
      · rw [after_append, answers, answers, asked, polled]
      · intro more
        rw [after_append, after_append, after_append]
        exact congrArg (·.after more) polled

/-- A thousand packets a second on a clock of a megahertz: a run that empties the bucket, takes what
four packet times earn just before the fifth, and takes the next token when the fifth is over. -/
def fiveTimes : List Poll :=
  [⟨0, 64, 32⟩, ⟨4999, 32, 4⟩, ⟨5000, 32, 1⟩]

/-- Such a run is followed, its last two polls keep within their span, and a look into the bucket half
way through the third packet time changes neither the answers nor the states after it. -/
theorem bucket_exact_five_times :
    (make 1000 1000000 32 0).Follows 0 fiveTimes ∧
    Poll.total (fiveTimes.drop 1) = 5 ∧ 5 ≤ 32 + Poll.span (fiveTimes.drop 1) / 1000 ∧
    ((make 1000 1000000 32 0).after [⟨0, 64, 32⟩, ⟨2500, 64, 0⟩]).answers (fiveTimes.drop 1) =
      [4, 1] ∧
    (make 1000 1000000 32 0).after ([⟨0, 64, 32⟩, ⟨2500, 64, 0⟩] ++ fiveTimes.drop 1) =
      (make 1000 1000000 32 0).after fiveTimes := by
  -- The run is checked poll by poll, and the theorem is used with an idle poll in between.
  have follows : (make 1000 1000000 32 0).Follows 0 fiveTimes :=
    ⟨by decide, by decide, by decide, by decide, by decide, by decide, trivial⟩
  obtain ⟨windows, polls⟩ := bucket_exact follows
  have window := windows (fiveTimes.drop 1) ⟨fiveTimes.take 1, [], by rfl⟩
  obtain ⟨-, idle⟩ := polls [⟨0, 64, 32⟩] ⟨4999, 32, 4⟩ [⟨5000, 32, 1⟩] rfl
  obtain ⟨answers, states⟩ := idle (by decide) [⟨2500, 64, 0⟩]
    ⟨by decide, by decide, by decide, by decide, trivial⟩ (by simp)
  exact ⟨follows, rfl, window, answers.trans (by decide), states [⟨5000, 32, 1⟩]⟩

end Pacer

end PacketPlane
