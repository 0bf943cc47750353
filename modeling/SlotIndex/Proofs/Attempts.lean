import Mathlib.Data.List.Infix
import Mathlib.Data.Nat.Find
import SlotIndex.Retry

/-!
# Attempts at a request

A request is made until an attempt succeeds, fails for good or is the last one that is allowed. What is
done up to there are a call and then, for each further attempt, a wait and a call; the result is that of
the last call, and nothing is ever made up behind it.

* `NodeError.MayPass`, `isRetryable_iff`: the failures after which a request is made again.
* `RetryPolicy.EndsAt`: the attempts with which a request ends.
* `retryFrom_of_endsAt`, `retryFrom_of_not_endsAt`: one attempt.
* `retryFrom_eq`: all attempts from a number on.
* `RetryPolicy.upTo`: all that is done up to an attempt.
* `exists_retry_eq`, **`retry_ends_at_first`**: a whole request.
* `waits_retry`: timers run as long as they are set to, where no wait may be longer than the longest timer.
-/

namespace SlotIndex

/-! ## Failures that may pass -/

theorem hasPart_iff {part text : List Char} : hasPart part text = true ↔ part <:+: text := by
  induction text with
  | nil => simp [hasPart]
  | cons c text ih => simp [hasPart, ih, List.infix_cons_iff]

/-- Failures that may pass: those of the connection, and answers of the node in which, in any case of
letters, one of the phrases for passing failures stands. -/
inductive NodeError.MayPass : NodeError → Prop where
  | transport (message : String) : MayPass (.transport message)
  | provider {message part : String} (hpart : part ∈ passingFailures)
      (h : part.toList <:+: message.toList.flatMap lowerLetter) : MayPass (.provider message)

theorem isRetryable_iff {e : NodeError} : e.isRetryable = true ↔ e.MayPass := by
  cases e with
  | transport message => exact iff_of_true rfl (.transport message)
  | invalidUrl => exact iff_of_false Bool.false_ne_true nofun
  | blockNotFound => exact iff_of_false Bool.false_ne_true nofun
  | provider message =>
    simp only [NodeError.isRetryable, isPassingFailure, List.any_eq_true, hasPart_iff]
    constructor
    · rintro ⟨part, hpart, h⟩
      exact .provider hpart h
    · intro h
      cases h with
      | provider hpart h => exact ⟨_, hpart, h⟩

/-! ## One attempt -/

variable {α : Type} (p : RetryPolicy) (outcome : Nat → Except NodeError α)

/-- A request ends with an attempt that succeeds, that fails for good or that is the last one. -/
inductive RetryPolicy.EndsAt (attempt : Nat) : Prop where
  | succeeded {a : α} (h : outcome attempt = .ok a)
  | failed {e : NodeError} (h : outcome attempt = .error e) (hpass : ¬ e.MayPass)
  | last (h : attempt = p.maxRetries)

variable {p outcome} {attempt : Nat}

theorem retryFrom_of_endsAt (h : p.EndsAt outcome attempt) (steps : Nat) (last : Option NodeError) :
    retryFrom p outcome (steps + 1) attempt last = ⟨outcome attempt, p.attemptSteps attempt⟩ := by
  rw [retryFrom]
  cases houtcome : outcome attempt with
  | ok a => rfl
  | error e =>
    have hgiven : ¬ (e.isRetryable = true ∧ attempt < p.maxRetries) := by
      rintro ⟨hpass, hlt⟩
      rw [isRetryable_iff] at hpass
      cases h with
      | succeeded hok => rw [hok] at houtcome; contradiction
      | failed herror hnot =>
        rw [herror, Except.error.injEq] at houtcome
        exact hnot (houtcome ▸ hpass)
      | last hlast => omega
    simp only [if_neg hgiven]

theorem retryFrom_of_not_endsAt (h : ¬ p.EndsAt outcome attempt) (hlt : attempt < p.maxRetries)
    (steps : Nat) (last : Option NodeError) :
    ∃ e, retryFrom p outcome (steps + 1) attempt last =
      ⟨(retryFrom p outcome steps (attempt + 1) (some e)).result,
        p.attemptSteps attempt ++ (retryFrom p outcome steps (attempt + 1) (some e)).steps⟩ := by
  cases houtcome : outcome attempt with
  | ok a => exact absurd (.succeeded houtcome) h
  | error e =>
    have hpass : e.MayPass := by
      by_contra hnot
      exact h (.failed houtcome hnot)
    refine ⟨e, ?_⟩
    rw [retryFrom]
    simp only [houtcome, if_pos (And.intro (isRetryable_iff.2 hpass) hlt)]

/-! ## All attempts -/

/-- From any attempt on, a request goes on to the first one with which it ends, if there are steps enough
to reach it. -/
theorem retryFrom_eq {i further : Nat} (hends : p.EndsAt outcome i)
    (hfirst : ∀ j < i, ¬ p.EndsAt outcome j) (hle : i ≤ p.maxRetries) (hi : attempt + further = i)
    (more : Nat) (last : Option NodeError) :
    retryFrom p outcome (more + further + 1) attempt last =
      ⟨outcome i, (List.range' attempt (further + 1)).flatMap p.attemptSteps⟩ := by
  induction further generalizing attempt last with
  | zero =>
    obtain rfl : attempt = i := hi
    rw [Nat.add_zero, retryFrom_of_endsAt hends, List.range'_one, List.flatMap_singleton]
  | succ further ih =>
    obtain ⟨e, hstep⟩ := retryFrom_of_not_endsAt (hfirst attempt (by omega)) (by omega)
      (more + further + 1) last
    rw [← Nat.add_assoc more, hstep, ih (by omega), List.range'_succ (n := further + 1),
      List.flatMap_cons]

/-- All that is done up to an attempt: a call, and a wait and a call for each further attempt. -/
def RetryPolicy.upTo (p : RetryPolicy) (attempt : Nat) : List RetryStep :=
  .call 0 :: (List.range attempt).flatMap fun j => [.wait (p.delay (j + 1)), .call (j + 1)]

theorem flatMap_attemptSteps (p : RetryPolicy) (attempt : Nat) :
    (List.range' 0 (attempt + 1)).flatMap p.attemptSteps = p.upTo attempt := by
  rw [← List.range_eq_range', List.range_succ_eq_map, List.flatMap_cons, List.flatMap_map]
  rfl

theorem upTo_succ (p : RetryPolicy) (attempt : Nat) :
    p.upTo (attempt + 1) =
      p.upTo attempt ++ [.wait (p.delay (attempt + 1)), .call (attempt + 1)] := by
  simp [RetryPolicy.upTo, List.range_succ]

theorem countP_isCall_upTo (p : RetryPolicy) (attempt : Nat) :
    (p.upTo attempt).countP RetryStep.isCall = attempt + 1 := by
  induction attempt with
  | zero => rfl
  | succ attempt ih => rw [upTo_succ, List.countP_append, ih]; rfl

theorem filterMap_delay?_upTo (p : RetryPolicy) (attempt : Nat) :
    (p.upTo attempt).filterMap RetryStep.delay? =
      (List.range attempt).map fun j => p.delay (j + 1) := by
  induction attempt with
  | zero => rfl
  | succ attempt ih => rw [upTo_succ, List.filterMap_append, ih, List.range_succ, List.map_append]; rfl

theorem giveUp_not_mem_upTo (p : RetryPolicy) (attempt : Nat) : .giveUp ∉ p.upTo attempt := by
  simp [RetryPolicy.upTo]

/-- A request ends with the first attempt that can end it; there is one. -/
theorem exists_retry_eq (p : RetryPolicy) (outcome : Nat → Except NodeError α) :
    ∃ i, (p.EndsAt outcome i ∧ ∀ j < i, ¬ p.EndsAt outcome j) ∧
      retry p outcome = ⟨outcome i, p.upTo i⟩ := by
  classical
  have hlast : p.EndsAt outcome p.maxRetries := .last rfl
  have hexists : ∃ i, p.EndsAt outcome i := ⟨_, hlast⟩
  refine ⟨Nat.find hexists, ⟨Nat.find_spec hexists, fun j hj => Nat.find_min hexists hj⟩, ?_⟩
  have hle : Nat.find hexists ≤ p.maxRetries := Nat.find_min' hexists hlast
  have hrun := retryFrom_eq (Nat.find_spec hexists) (fun j hj => Nat.find_min hexists hj) hle
    (Nat.zero_add _) (p.maxRetries - Nat.find hexists) none
  rw [Nat.sub_add_cancel hle, flatMap_attemptSteps] at hrun
  exact hrun

/-- **A request ends with the first attempt that succeeds, fails for good or is the last one allowed.**
It has been made once for each attempt up to there, its result is the outcome of this attempt as it is,
and before each call but the first one a timer was set once, to the wait that belongs to this attempt.
The result that stands behind the last attempt is never reached. -/
theorem retry_ends_at_first (p : RetryPolicy) (outcome : Nat → Except NodeError α) :
    ∃ i, (p.EndsAt outcome i ∧ ∀ j < i, ¬ p.EndsAt outcome j) ∧
      (retry p outcome).result = outcome i ∧
      (retry p outcome).calls = i + 1 ∧
      (retry p outcome).delays = (List.range i).map (fun j => p.delay (j + 1)) ∧
      (retry p outcome).steps =
        .call 0 :: (List.range i).flatMap (fun j => [.wait (p.delay (j + 1)), .call (j + 1)]) ∧
      .giveUp ∉ (retry p outcome).steps := by
  obtain ⟨i, hfirst, hrun⟩ := exists_retry_eq p outcome
  rw [hrun]
  exact ⟨i, hfirst, rfl, countP_isCall_upTo p i, filterMap_delay?_upTo p i, rfl,
    giveUp_not_mem_upTo p i⟩

/-! ## Waits -/

theorem delay_le (p : RetryPolicy) (attempt : Nat) : p.delay attempt ≤ p.maxDelay := by
  rw [RetryPolicy.delay]
  split
  · exact Nat.zero_le _
  · exact Nat.min_le_right _ _

/-- Where no wait may be longer than the longest timer, the timers run as long as they are set to. -/
theorem waits_retry (outcome : Nat → Except NodeError α) (hmax : p.maxDelay ≤ longestTimer) :
    (retry p outcome).waits = (retry p outcome).delays := by
  obtain ⟨i, -, hrun⟩ := exists_retry_eq p outcome
  rw [RetryRun.waits, RetryRun.delays, hrun, filterMap_delay?_upTo, List.map_map]
  refine List.map_congr_left fun j _ => ?_
  exact Nat.min_eq_left ((delay_le p (j + 1)).trans hmax)

end SlotIndex
