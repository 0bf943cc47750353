import Mathlib.Data.List.Basic
import SlotIndex.Feed.Extraction

/-!
# Extraction beside its source

A source and the extraction run beside each other, with a channel for diffs and one for errors between
them. The source sends when there is room, and the extraction receives from any channel in which there is
something. A source whose messages nobody receives any more may return what it likes.

* `Channel`, `Pipeline`: the two channels, and all that is there at a moment.
* `Pipeline.Step`: all that can happen next.
* `Pipeline.EndsWith`: every run comes to an end, and a property holds there.
* `Pipeline.Sound`: what is in the channels and what is unsent still lead to the same extraction.
* `Pipeline.remaining`: each step leaves less to do.
* **`Pipeline.endsWith_initial`**.
-/

namespace SlotIndex

/-- The diffs among the messages of a source. -/
def diffsIn (ms : List SourceMessage) : List Diff := ms.filterMap Except.toOption

/-- The errors among the messages of a source. -/
def errorsIn (ms : List SourceMessage) : List StorageError :=
  ms.filterMap fun
    | .ok _ => none
    | .error e => some e

/-- The result when the source has returned too. An error of extraction goes before what the source
returned. -/
def Extraction.result (s : Extraction) (returned : Except StorageError Unit) :
    Except StorageError Unit :=
  match s.failure with
  | some e => .error e
  | none => returned

/-- Once extraction has ended, nothing is written any more. -/
theorem Extraction.foldl_persist_of_failure {fails : Nat → Option StorageError} {s : Extraction}
    (h : s.failure.isSome = true) (ds : List Diff) : ds.foldl (persist fails) s = s := by
  induction ds with
  | nil => rfl
  | cons d ds ih => rw [List.foldl_cons, persist, if_pos h, ih]

/-! ## Channels -/

/-- A channel between a source and the extraction. -/
structure Channel (α : Type) where
  /-- What has been sent and not been received. -/
  held : List α
  /-- Whether the sender is gone. -/
  closed : Bool
  /-- Whether the receiver knows that nothing follows. -/
  drained : Bool

namespace Channel

variable {α : Type} {c : Channel α} {a : α} {as : List α}

/-- A channel that nothing has been sent through. -/
def empty : Channel α := ⟨[], false, false⟩

def send (c : Channel α) (a : α) : Channel α := { c with held := c.held ++ [a] }

/-- How often something can still happen to a channel to which nothing is sent. -/
def remaining (c : Channel α) : Nat :=
  c.held.length + (!c.closed).toNat + (!c.drained).toNat

theorem remaining_send (c : Channel α) (a : α) : (c.send a).remaining = c.remaining + 1 := by
  simp only [remaining, send, List.length_append, List.length_singleton]
  omega

/-- What is true of a channel through which `toSend` is still to be sent. -/
structure Sound (c : Channel α) (toSend : List α) : Prop where
  closed : c.closed = true → toSend = []
  drained : c.drained = true → c.closed = true ∧ c.held = []

theorem sound_empty : (empty : Channel α).Sound as := ⟨nofun, nofun⟩

theorem Sound.send (h : c.Sound (a :: as)) : (c.send a).Sound as where
  closed hc := absurd (h.closed hc) (List.cons_ne_nil a as)
  drained hd := absurd (h.closed (h.drained hd).1) (List.cons_ne_nil a as)

theorem Sound.close (h : c.Sound []) : Sound { c with closed := true } [] where
  closed _ := rfl
  drained hd := ⟨rfl, (h.drained hd).2⟩

/-- A channel in which there is something is not drained. -/
theorem Sound.drained_eq_false {rest : List α} (h : c.Sound as) (hheld : c.held = a :: rest) :
    c.drained = false := by
  cases hd : c.drained with
  | false => rfl
  | true =>
    have hnil := (h.drained hd).2
    rw [hheld] at hnil
    contradiction

theorem Sound.receive {rest : List α} (h : c.Sound as) (hheld : c.held = a :: rest) :
    Sound { c with held := rest } as where
  closed := h.closed
  drained hd := by
    rw [h.drained_eq_false hheld] at hd
    contradiction

theorem Sound.drain (h : c.Sound as) (hheld : c.held = []) (hclosed : c.closed = true) :
    Sound { c with drained := true } as where
  closed := h.closed
  drained _ := ⟨hclosed, hheld⟩

end Channel

/-! ## Source and extraction -/

/-- A source and the extraction at work. -/
structure Pipeline where
  /-- What the source still has to send. -/
  unsent : List SourceMessage
  diffs : Channel Diff
  errors : Channel StorageError
  /-- What the source has returned. -/
  returned : Option (Except StorageError Unit)
  extraction : Extraction

namespace Pipeline

/-- Nothing has been sent yet. -/
def initial (ms : List SourceMessage) (stored : List Diff) : Pipeline :=
  ⟨ms, .empty, .empty, none, .start stored⟩

/-- Whether the extraction waits for more. -/
def isReceiving (p : Pipeline) : Bool :=
  p.extraction.failure.isNone && !(p.diffs.drained && p.errors.drained)

/-- The result, once the source and the extraction have both come to their end. -/
def result? (p : Pipeline) : Option (Except StorageError Unit) :=
  if p.isReceiving then none else p.returned.map p.extraction.result

variable (fails : Nat → Option StorageError) (capacity : Nat) (ending : Except StorageError Unit)

/-- What can happen next. The source returns `ending` once it has sent everything. -/
inductive Step (p : Pipeline) : Pipeline → Prop where
  | sendDiff {d : Diff} {rest : List SourceMessage} (hunsent : p.unsent = .ok d :: rest)
      (hreturned : p.returned = none) (hreceived : p.extraction.failure = none)
      (hroom : p.diffs.held.length < capacity) :
      Step p { p with unsent := rest, diffs := p.diffs.send d }
  | sendError {e : StorageError} {rest : List SourceMessage} (hunsent : p.unsent = .error e :: rest)
      (hreturned : p.returned = none) (hreceived : p.extraction.failure = none)
      (hroom : p.errors.held.length < capacity) :
      Step p { p with unsent := rest, errors := p.errors.send e }
  | closeDiffs (hunsent : diffsIn p.unsent = []) (hreturned : p.returned = none)
      (hclosed : p.diffs.closed = false) : Step p { p with diffs := { p.diffs with closed := true } }
  | closeErrors (hunsent : errorsIn p.unsent = []) (hreturned : p.returned = none)
      (hclosed : p.errors.closed = false) :
      Step p { p with errors := { p.errors with closed := true } }
  | finish (hunsent : p.unsent = []) (hreturned : p.returned = none)
      (hdiffs : p.diffs.closed = true) (herrors : p.errors.closed = true) :
      Step p { p with returned := some ending }
  /-- Once nobody receives any more, the source returns for a reason of its own. -/
  | giveUp (result : Except StorageError Unit) (hreturned : p.returned = none)
      (hreceived : p.extraction.failure.isSome = true) : Step p { p with returned := some result }
  | takeDiff {d : Diff} {rest : List Diff} (hreceiving : p.isReceiving = true)
      (hheld : p.diffs.held = d :: rest) :
      Step p
        { p with
          diffs := { p.diffs with held := rest }, extraction := p.extraction.persist fails d }
  | takeError {e : StorageError} {rest : List StorageError} (hreceiving : p.isReceiving = true)
      (hheld : p.errors.held = e :: rest) :
      Step p { p with errors := { p.errors with held := rest } }
  | drainDiffs (hreceiving : p.isReceiving = true) (hheld : p.diffs.held = [])
      (hclosed : p.diffs.closed = true) (hdrained : p.diffs.drained = false) :
      Step p { p with diffs := { p.diffs with drained := true } }
  | drainErrors (hreceiving : p.isReceiving = true) (hheld : p.errors.held = [])
      (hclosed : p.errors.closed = true) (hdrained : p.errors.drained = false) :
      Step p { p with errors := { p.errors with drained := true } }

/-- Every run from a state comes to an end, whatever happens in it, and at its end a property holds. -/
inductive EndsWith (P : Pipeline → Prop) : Pipeline → Prop where
  | here {p : Pipeline} (hstuck : ∀ q, ¬ Step fails capacity ending p q) (h : P p) : EndsWith P p
  | later {p : Pipeline} (hmoves : ∃ q, Step fails capacity ending p q)
      (h : ∀ q, Step fails capacity ending p q → EndsWith P q) : EndsWith P p

/-- How often something can still happen. -/
def remaining (p : Pipeline) : Nat :=
  2 * p.unsent.length + p.diffs.remaining + p.errors.remaining + p.returned.isNone.toNat

/-- What is true all the time, when the extraction comes out as `last` if all diffs are written one
after the other. -/
structure Sound (last : Extraction) (p : Pipeline) : Prop where
  diffs : p.diffs.Sound (diffsIn p.unsent)
  errors : p.errors.Sound (errorsIn p.unsent)
  leads : (p.diffs.held ++ diffsIn p.unsent).foldl (Extraction.persist fails) p.extraction = last
  returned : ∀ r, p.returned = some r → p.extraction.failure.isSome = true ∨
    r = ending ∧ p.diffs.closed = true ∧ p.errors.closed = true

variable {fails : Nat → Option StorageError} {capacity : Nat} {ending : Except StorageError Unit}
  {p q : Pipeline} {last : Extraction}

theorem EndsWith.mono {P Q : Pipeline → Prop} (h : EndsWith fails capacity ending P p)
    (hPQ : ∀ p, P p → Q p) : EndsWith fails capacity ending Q p := by
  induction h with
  | here hstuck h => exact .here hstuck (hPQ _ h)
  | later hmoves _ ih => exact .later hmoves ih

theorem sound_initial (ms : List SourceMessage) (stored : List Diff) :
    Sound fails ending ((diffsIn ms).foldl (Extraction.persist fails) (.start stored))
      (initial ms stored) where
  diffs := Channel.sound_empty
  errors := Channel.sound_empty
  leads := rfl
  returned _ hr := nomatch hr

theorem failure_eq_none_of_isReceiving (h : p.isReceiving = true) : p.extraction.failure = none := by
  simp only [isReceiving, Bool.and_eq_true, Option.isNone_iff_eq_none] at h
  exact h.1

/-- A source that has returned while the extraction goes on has sent everything. -/
theorem Sound.returned_of_failure (h : Sound fails ending last p)
    (hfailure : p.extraction.failure = none) {r : Except StorageError Unit}
    (hr : p.returned = some r) : r = ending ∧ p.diffs.closed = true ∧ p.errors.closed = true := by
  rcases h.returned r hr with hsome | hends
  · rw [hfailure] at hsome
    contradiction
  · exact hends

theorem Sound.step (h : Sound fails ending last p) (hstep : Step fails capacity ending p q) :
    Sound fails ending last q := by
  -- Before it returns, the source has nothing to prove about what it returns.
  have hopen : p.returned = none → ∀ r, p.returned ≠ some r := fun hnone r hr => by
    rw [hnone] at hr
    contradiction
  have hdiffs := h.diffs
  have herrors := h.errors
  have hleads := h.leads
  cases hstep with
  | sendDiff hunsent hreturned hreceived hroom =>
    rw [hunsent] at hdiffs herrors hleads
    refine ⟨hdiffs.send, herrors, ?_, fun r hr => absurd hr (hopen hreturned r)⟩
    rw [← hleads]
    simp [Channel.send, diffsIn, Except.toOption]
  | sendError hunsent hreturned hreceived hroom =>
    rw [hunsent] at hdiffs herrors hleads
    exact ⟨hdiffs, herrors.send, hleads, fun r hr => absurd hr (hopen hreturned r)⟩
  | closeDiffs hunsent hreturned hclosed =>
    refine ⟨?_, herrors, hleads, fun r hr => absurd hr (hopen hreturned r)⟩
    rw [hunsent] at hdiffs ⊢
    exact hdiffs.close
  | closeErrors hunsent hreturned hclosed =>
    refine ⟨hdiffs, ?_, hleads, fun r hr => absurd hr (hopen hreturned r)⟩
    rw [hunsent] at herrors ⊢
    exact herrors.close
  | finish hunsent hreturned hd he =>
    refine ⟨hdiffs, herrors, hleads, fun r hr => .inr ⟨?_, hd, he⟩⟩
    exact (Option.some.inj hr).symm
  | giveUp result hreturned hreceived => exact ⟨hdiffs, herrors, hleads, fun _ _ => .inl hreceived⟩
  | takeDiff hreceiving hheld =>
    have hnone := failure_eq_none_of_isReceiving hreceiving
    refine ⟨hdiffs.receive hheld, herrors, ?_, fun r hr => .inr (h.returned_of_failure hnone hr)⟩
    rw [hheld] at hleads
    exact hleads
  | takeError hreceiving hheld => exact ⟨hdiffs, herrors.receive hheld, hleads, h.returned⟩
  | drainDiffs hreceiving hheld hclosed hdrained =>
    exact ⟨hdiffs.drain hheld hclosed, herrors, hleads, h.returned⟩
  | drainErrors hreceiving hheld hclosed hdrained =>
    exact ⟨hdiffs, herrors.drain hheld hclosed, hleads, h.returned⟩

/-! ## Every run ends -/

theorem Step.remaining_lt (h : Step fails capacity ending p q) : q.remaining < p.remaining := by
  cases h with
  | sendDiff hunsent hreturned hreceived hroom | sendError hunsent hreturned hreceived hroom =>
    simp only [remaining, Channel.remaining_send, hunsent, List.length_cons]
    omega
  | closeDiffs hunsent hreturned hclosed | closeErrors hunsent hreturned hclosed =>
    simp [remaining, Channel.remaining, hclosed]
  | finish hunsent hreturned | giveUp result hreturned => simp [remaining, hreturned]
  | takeDiff hreceiving hheld | takeError hreceiving hheld =>
    simp [remaining, Channel.remaining, hheld]
  | drainDiffs hreceiving hheld hclosed hdrained | drainErrors hreceiving hheld hclosed hdrained =>
    simp [remaining, Channel.remaining, hdrained]

/-- While the source is at work, something can happen. -/
theorem exists_step_of_unreturned (hcapacity : 0 < capacity) (h : Sound fails ending last p)
    (hreturned : p.returned = none) : ∃ q, Step fails capacity ending p q := by
  cases hfailure : p.extraction.failure with
  | some e => exact ⟨_, .giveUp ending hreturned (by rw [hfailure]; rfl)⟩
  | none =>
    -- If a channel has no room there is something in it, which can be received.
    cases hunsent : p.unsent with
    | nil =>
      cases hd : p.diffs.closed with
      | false => exact ⟨_, .closeDiffs (by rw [hunsent]; rfl) hreturned hd⟩
      | true =>
        cases he : p.errors.closed with
        | false => exact ⟨_, .closeErrors (by rw [hunsent]; rfl) hreturned he⟩
        | true => exact ⟨_, .finish hunsent hreturned hd he⟩
    | cons m rest =>
      cases m with
      | ok d =>
        cases hheld : p.diffs.held with
        | nil => exact ⟨_, .sendDiff hunsent hreturned hfailure (by rw [hheld]; exact hcapacity)⟩
        | cons a as =>
          have hdrained := h.diffs.drained_eq_false hheld
          exact ⟨_, .takeDiff (by simp [isReceiving, hfailure, hdrained]) hheld⟩
      | error e =>
        cases hheld : p.errors.held with
        | nil => exact ⟨_, .sendError hunsent hreturned hfailure (by rw [hheld]; exact hcapacity)⟩
        | cons a as =>
          have hdrained := h.errors.drained_eq_false hheld
          exact ⟨_, .takeError (by simp [isReceiving, hfailure, hdrained]) hheld⟩

/-- While the extraction waits for more, something can happen. -/
theorem exists_step_of_isReceiving (hcapacity : 0 < capacity) (h : Sound fails ending last p)
    (hreceiving : p.isReceiving = true) : ∃ q, Step fails capacity ending p q := by
  cases hreturned : p.returned with
  | none => exact exists_step_of_unreturned hcapacity h hreturned
  | some r =>
    have hfailure := failure_eq_none_of_isReceiving hreceiving
    obtain ⟨-, hdclosed, heclosed⟩ := h.returned_of_failure hfailure hreturned
    -- Both channels are closed, and one of them is not known to be drained.
    cases hd : p.diffs.drained with
    | false =>
      cases hheld : p.diffs.held with
      | nil => exact ⟨_, .drainDiffs hreceiving hheld hdclosed hd⟩
      | cons a as => exact ⟨_, .takeDiff hreceiving hheld⟩
    | true =>
      have he : p.errors.drained = false := by
        simpa [isReceiving, hfailure, hd] using hreceiving
      cases hheld : p.errors.held with
      | nil => exact ⟨_, .drainErrors hreceiving hheld heclosed he⟩
      | cons a as => exact ⟨_, .takeError hreceiving hheld⟩

theorem not_step_of_result {r : Except StorageError Unit} (h : p.result? = some r)
    (hstep : Step fails capacity ending p q) : False := by
  unfold result? at h
  split at h
  · contradiction
  · next hreceiving =>
    obtain ⟨returned, hreturned, -⟩ := Option.map_eq_some_iff.1 h
    cases hstep <;> simp_all

/-- At the end of a run all diffs have been written one after the other. -/
theorem Sound.eq_of_result (h : Sound fails ending last p) {r : Except StorageError Unit}
    (hr : p.result? = some r) : p.extraction = last ∧ r = last.result ending := by
  unfold result? at hr
  split at hr
  · contradiction
  · next hreceiving =>
    obtain ⟨returned, hreturned, rfl⟩ := Option.map_eq_some_iff.1 hr
    have hleads := h.leads
    cases hfailure : p.extraction.failure with
    | some e =>
      rw [Extraction.foldl_persist_of_failure (by rw [hfailure]; rfl)] at hleads
      refine ⟨hleads, ?_⟩
      rw [← hleads]
      simp only [Extraction.result, hfailure]
    | none =>
      obtain ⟨hdrained, -⟩ : p.diffs.drained = true ∧ p.errors.drained = true := by
        simpa [isReceiving, hfailure] using hreceiving
      obtain ⟨hclosed, hheld⟩ := h.diffs.drained hdrained
      rw [hheld, h.diffs.closed hclosed] at hleads
      refine ⟨hleads, ?_⟩
      rw [(h.returned_of_failure hfailure hreturned).1, ← show p.extraction = last from hleads]

theorem endsWith_of_sound (hcapacity : 0 < capacity) (h : Sound fails ending last p) :
    EndsWith fails capacity ending
      (fun q => q.extraction = last ∧ q.result? = some (last.result ending)) p := by
  induction hn : p.remaining using Nat.strongRecOn generalizing p with
  | ind n ih =>
    subst hn
    cases hresult : p.result? with
    | some r =>
      obtain ⟨hlast, rfl⟩ := h.eq_of_result hresult
      exact .here (fun _ hstep => not_step_of_result hresult hstep) ⟨hlast, hresult⟩
    | none =>
      refine .later ?_ fun q hstep => ih q.remaining hstep.remaining_lt (h.step hstep) rfl
      -- Without a result, one of the two is still at work.
      unfold result? at hresult
      split at hresult
      · next hreceiving => exact exists_step_of_isReceiving hcapacity h hreceiving
      · exact exists_step_of_unreturned hcapacity h (Option.map_eq_none_iff.1 hresult)

/-- **Extraction comes to an end, and always to the same one.** In whatever order things happen, the diffs
are written one after the other as they are sent. -/
theorem endsWith_initial (hcapacity : 0 < capacity) (ms : List SourceMessage) (stored : List Diff) :
    let last := (diffsIn ms).foldl (Extraction.persist fails) (.start stored)
    EndsWith fails capacity ending
      (fun q => q.extraction = last ∧ q.result? = some (last.result ending)) (initial ms stored) :=
  endsWith_of_sound hcapacity (sound_initial ms stored)

end Pipeline

end SlotIndex
