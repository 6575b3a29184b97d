import Mathlib.Data.List.Basic
import Mathlib.Order.MinMax

/-!
# Metering requests by tokens

A meter admits a request as long as a token is left.  Tokens are credited for
the time that has passed, when at least `pause` has passed since the last
credit, and never beyond the capacity.  `admittedIn_le` bounds what is admitted
in any window of time; `allAdmitted_iff` says exactly when nothing is refused.
-/

/-- `credit` is the number of tokens for an elapsed time. -/
structure Meter where
  capacity : Nat
  pause : Nat
  credit : Nat → Nat

namespace Meter

/-- The tokens that are left, and the time of the last credit. -/
structure Level where
  tokens : Nat
  last : Nat
  deriving DecidableEq, Repr

variable (meter : Meter)

def refill (level : Level) (now : Nat) : Level :=
  if now < level.last + meter.pause then level
  else
    { tokens :=
        min meter.capacity (level.tokens + meter.credit (now - level.last))
      last := now }

def take (level : Level) (now : Nat) : Bool × Level :=
  let level := meter.refill level now
  if level.tokens = 0 then (false, level)
  else (true, { level with tokens := level.tokens - 1 })

/-- One request at each time: the times, and which requests were admitted. -/
def requests : Level → List Nat → List (Nat × Bool)
  | _, [] => []
  | level, now :: rest =>
      let (admitted, next) := meter.take level now
      (now, admitted) :: requests next rest

/-- The number of admitted requests from `start` to `stop`. -/
def admittedIn (start stop : Nat) (made : List (Nat × Bool)) : Nat :=
  made.countP fun request =>
    start ≤ request.1 && request.1 ≤ stop && request.2

/-- The tokens that the credits add up to, for requests at these times. -/
def credited : Nat → List Nat → Nat
  | _, [] => 0
  | last, now :: rest =>
      if now < last + meter.pause then credited last rest
      else meter.credit (now - last) + credited now rest

/-- However many of these requests have come, there was a token for each. -/
def Covered (tokens last : Nat) (times : List Nat) : Prop :=
  ∀ window, window <+: times →
    window.length ≤ tokens + meter.credited last window

/-- The requests from each credit on are covered by a full meter. -/
def CreditsCovered : Nat → List Nat → Prop
  | _, [] => True
  | last, now :: rest =>
      if now < last + meter.pause then CreditsCovered last rest
      else
        meter.Covered meter.capacity now (now :: rest) ∧
          CreditsCovered now rest

variable {meter}

theorem refill_tokens_le {level : Level}
    (within : level.tokens ≤ meter.capacity) (now : Nat) :
    (meter.refill level now).tokens ≤ meter.capacity := by
  unfold refill
  split
  · exact within
  · exact min_le_left _ _

theorem take_last (level : Level) (now : Nat) :
    (meter.take level now).2.last = (meter.refill level now).last := by
  simp only [take]
  split <;> rfl

/-- An admitted request takes a token. -/
theorem take_tokens (level : Level) (now : Nat) :
    (if (meter.take level now).1 then 1 else 0) +
        (meter.take level now).2.tokens =
      (meter.refill level now).tokens := by
  simp only [take]
  split
  · rename_i empty
    simp [empty]
  · rename_i some
    simp only [if_true]
    omega

theorem take_tokens_le {level : Level}
    (within : level.tokens ≤ meter.capacity) (now : Nat) :
    (meter.take level now).2.tokens ≤ meter.capacity := by
  have taken := meter.take_tokens level now
  have refilled := meter.refill_tokens_le within now
  omega

theorem admittedIn_cons (start stop : Nat) (request : Nat × Bool)
    (rest : List (Nat × Bool)) :
    admittedIn start stop (request :: rest) =
      (if start ≤ request.1 ∧ request.1 ≤ stop ∧ request.2 then 1 else 0) +
        admittedIn start stop rest := by
  rw [admittedIn, List.countP_cons, Nat.add_comm]
  simp [admittedIn, and_assoc]

/-- Requests after the window are not counted. -/
theorem admittedIn_late {start stop : Nat} {level : Level} {times : List Nat}
    (late : ∀ time ∈ times, stop < time) :
    admittedIn start stop (meter.requests level times) = 0 := by
  induction times generalizing level with
  | nil => rfl
  | cons now rest induction =>
      obtain ⟨nowLate, restLate⟩ := List.forall_mem_cons.mp late
      rw [requests, admittedIn_cons, induction restLate, if_neg]
      rintro ⟨_, inside, _⟩
      exact absurd inside (Nat.not_le.mpr nowLate)

section Bound

variable {bound : Nat → Nat}
  (credits : ∀ first second,
    meter.credit first + bound second ≤ bound (first + second))

include credits

theorem bound_mono {shorter longer : Nat} (le : shorter ≤ longer) :
    bound shorter ≤ bound longer := by
  obtain ⟨extra, rfl⟩ := Nat.exists_eq_add_of_le' le
  exact (Nat.le_add_left _ _).trans (credits extra shorter)

/-- A credit does not raise what can be admitted up to `stop`. -/
theorem refill_potential (level : Level) {now stop : Nat} (le : now ≤ stop) :
    (meter.refill level now).tokens +
        bound (stop - (meter.refill level now).last) ≤
      level.tokens + bound (stop - level.last) := by
  unfold refill
  split
  · exact Nat.le_refl _
  · rename_i due
    have split : (now - level.last) + (stop - now) = stop - level.last := by
      omega
    have credit := credits (now - level.last) (stop - now)
    rw [split] at credit
    have capped := min_le_right meter.capacity
      (level.tokens + meter.credit (now - level.last))
    simp only
    omega

omit credits in
/-- The first request and what is admitted after it. -/
theorem admittedIn_cons_le {start stop : Nat} {level : Level} {now : Nat}
    {rest : List Nat}
    (later : admittedIn start stop
        (meter.requests (meter.take level now).2 rest) ≤
      (meter.take level now).2.tokens +
        bound (stop - (meter.take level now).2.last)) :
    admittedIn start stop (meter.requests level (now :: rest)) ≤
      (meter.refill level now).tokens +
        bound (stop - (meter.refill level now).last) := by
  have taken := meter.take_tokens level now
  have counted :
      (if start ≤ now ∧ now ≤ stop ∧ (meter.take level now).1 then 1 else 0) ≤
        if (meter.take level now).1 then 1 else 0 := by
    split
    · rename_i inside
      rw [if_pos inside.2.2]
    · exact Nat.zero_le _
  rw [take_last] at later
  rw [requests, admittedIn_cons]
  simp only
  omega

/-- No more is admitted than there are tokens and the time is worth. -/
theorem admittedIn_le_level {start stop : Nat} {level : Level}
    {times : List Nat} (sorted : times.Pairwise (· ≤ ·)) :
    admittedIn start stop (meter.requests level times) ≤
      level.tokens + bound (stop - level.last) := by
  induction times generalizing level with
  | nil => exact Nat.zero_le _
  | cons now rest induction =>
      obtain ⟨first, restSorted⟩ := List.pairwise_cons.mp sorted
      by_cases inside : now ≤ stop
      · exact (admittedIn_cons_le (induction restSorted)).trans
          (refill_potential credits level inside)
      · rw [admittedIn_late]
        · exact Nat.zero_le _
        · intro time member
          rcases List.mem_cons.mp member with rfl | later
          · omega
          · have := first time later
            omega

/-- In any window: a full meter, and what the time from `pause` before it is
worth. -/
theorem admittedIn_le {start stop : Nat} {level : Level} {times : List Nat}
    (within : level.tokens ≤ meter.capacity)
    (sorted : times.Pairwise (· ≤ ·)) :
    admittedIn start stop (meter.requests level times) ≤
      meter.capacity + bound (stop - start + (meter.pause - 1)) := by
  induction times generalizing level with
  | nil => exact Nat.zero_le _
  | cons now rest induction =>
      obtain ⟨first, restSorted⟩ := List.pairwise_cons.mp sorted
      by_cases recent : start < level.last + meter.pause
      · have fromLevel := @admittedIn_le_level _ _ credits start stop level _
          sorted
        have time := bound_mono credits
          (by omega : stop - level.last ≤ stop - start + (meter.pause - 1))
        omega
      · by_cases before : now < start
        · -- not in the window yet
          have later := induction (meter.take_tokens_le within now) restSorted
          rw [requests, admittedIn_cons, if_neg (by omega)]
          omega
        · -- the first request of the window is credited
          have fromCredit := admittedIn_cons_le
            (@admittedIn_le_level _ _ credits start stop
              (meter.take level now).2 rest restSorted)
          have refilled := meter.refill_tokens_le within now
          have last : (meter.refill level now).last = now := by
            rw [refill, if_neg (by omega)]
          rw [last] at fromCredit
          have time := bound_mono credits
            (by omega : stop - now ≤ stop - start + (meter.pause - 1))
          omega

end Bound

section Exactly

theorem covered_nil (tokens last : Nat) : meter.Covered tokens last [] := by
  intro window isPrefix
  rw [List.prefix_nil.mp isPrefix]
  exact Nat.zero_le _

/-- Coverage from a request on that brings no credit. -/
theorem covered_cons_early {tokens last now : Nat} {rest : List Nat}
    (early : now < last + meter.pause) :
    meter.Covered tokens last (now :: rest) ↔
      0 < tokens ∧ meter.Covered (tokens - 1) last rest := by
  have sameCredit : ∀ window, meter.credited last (now :: window) =
      meter.credited last window := fun _ => if_pos early
  constructor
  · intro covered
    have first := covered [now] (List.prefix_append [now] rest)
    rw [sameCredit] at first
    refine ⟨first, ?_⟩
    intro window isPrefix
    have longer := covered (now :: window)
      (List.cons_prefix_cons.mpr ⟨rfl, isPrefix⟩)
    rw [sameCredit, List.length_cons] at longer
    omega
  · rintro ⟨positive, covered⟩ window isPrefix
    cases window with
    | nil => exact Nat.zero_le _
    | cons first window =>
        obtain ⟨rfl, isShorter⟩ := List.cons_prefix_cons.mp isPrefix
        have shorter := covered window isShorter
        rw [sameCredit, List.length_cons]
        omega

/-- Coverage from a request on that brings a credit. -/
theorem covered_cons_due {tokens last now : Nat} {rest : List Nat}
    (pause : 0 < meter.pause) (due : ¬now < last + meter.pause) :
    meter.Covered tokens last (now :: rest) ↔
      meter.Covered (tokens + meter.credit (now - last)) now
        (now :: rest) := by
  have credit : ∀ window, meter.credited last (now :: window) =
      meter.credit (now - last) + meter.credited now (now :: window) := by
    intro window
    rw [credited, if_neg due, credited, if_pos (by omega)]
  constructor
  · intro covered window isPrefix
    have within := covered window isPrefix
    cases window with
    | nil => exact Nat.zero_le _
    | cons first window =>
        obtain ⟨rfl, _⟩ := List.cons_prefix_cons.mp isPrefix
        rw [credit] at within
        omega
  · intro covered window isPrefix
    have within := covered window isPrefix
    cases window with
    | nil => exact Nat.zero_le _
    | cons first window =>
        obtain ⟨rfl, _⟩ := List.cons_prefix_cons.mp isPrefix
        rw [credit]
        omega

theorem covered_min {left right last : Nat} {times : List Nat} :
    meter.Covered (min left right) last times ↔
      meter.Covered left last times ∧ meter.Covered right last times := by
  constructor
  · intro covered
    constructor
    · intro window isPrefix
      have within := covered window isPrefix
      have atMost := min_le_left left right
      omega
    · intro window isPrefix
      have within := covered window isPrefix
      have atMost := min_le_right left right
      omega
  · rintro ⟨fromLeft, fromRight⟩ window isPrefix
    have left := fromLeft window isPrefix
    have right := fromRight window isPrefix
    omega

/-- Nothing is refused exactly when the requests are covered from the start on
and from each credit on. -/
theorem allAdmitted_iff {level : Level} {times : List Nat}
    (pause : 0 < meter.pause) :
    (∀ request ∈ meter.requests level times, request.2 = true) ↔
      meter.Covered level.tokens level.last times ∧
        meter.CreditsCovered level.last times := by
  induction times generalizing level with
  | nil =>
      apply iff_of_true
      · intro request none
        cases none
      · exact ⟨covered_nil _ _, trivial⟩
  | cons now rest induction =>
      rw [requests, List.forall_mem_cons, induction, take_last]
      by_cases early : now < level.last + meter.pause
      · have same : meter.refill level now = level := if_pos early
        rw [covered_cons_early early, CreditsCovered, if_pos early, same]
        simp only [take, same]
        by_cases empty : level.tokens = 0
        · simp [empty]
        · simp [empty, Nat.pos_of_ne_zero empty]
      · have credited : meter.refill level now =
            { tokens := min meter.capacity
                (level.tokens + meter.credit (now - level.last))
              last := now } := if_neg early
        have again : now < now + meter.pause := by omega
        have merged : ∀ tokens,
            (meter.Covered tokens now (now :: rest) ∧
              meter.Covered meter.capacity now (now :: rest) ∧
                meter.CreditsCovered now rest) ↔
              meter.Covered (min meter.capacity tokens) now (now :: rest) ∧
                meter.CreditsCovered now rest := by
          intro tokens
          rw [← and_assoc, ← covered_min, min_comm]
        rw [covered_cons_due pause early, CreditsCovered, if_neg early, merged,
          covered_cons_early again]
        simp only [take, credited]
        generalize min meter.capacity _ = tokens
        by_cases empty : tokens = 0
        · simp [empty]
        · simp [empty, Nat.pos_of_ne_zero empty]

end Exactly

end Meter
