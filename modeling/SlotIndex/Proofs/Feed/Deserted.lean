import SlotIndex.Proofs.Feed.Channels
import SlotIndex.Proofs.Feed.Following

/-!
# A loop that nobody receives from

The loop that follows a file sends its messages to a consumer, through a channel for diffs and one for
errors. It learns that a receiver is gone when it has a message to send, and not while it waits for more to
be written.

* `Consumer`, `Extraction.consumer`: what receives the messages.
* `Intake`, `IntakeEvent`: the loop and its consumer, in any interleaving.
* `Intake.turn_of_no_lines`, `Intake.turn_of_lines`: what a turn comes to.
* `Intake.ended_turn_iff`: which turns end the loop.
* `Intake.Deserted`, `Intake.Deserted.ended_run`: a loop that goes on although nobody receives.
* `Intake.result?_run_of_failure`: when the error of extraction is returned.
* **`returns_iff_message_left`**.
-/

namespace SlotIndex

/-! ## Consumers -/

/-- What receives the messages of a source, with a receiver for diffs and one for errors. -/
structure Consumer (σ : Type) where
  /-- What it becomes by a message, or of its own accord. -/
  next : σ → Option SourceMessage → σ
  hasDiffs : σ → Bool
  hasErrors : σ → Bool
  /-- Receivers that are gone do not come back. -/
  gone : ∀ s m, (hasDiffs (next s m) = true → hasDiffs s = true) ∧
    (hasErrors (next s m) = true → hasErrors s = true)

/-- Whether the receiver of a message is there. -/
def Consumer.receives {σ : Type} (c : Consumer σ) (s : σ) : SourceMessage → Bool
  | .ok _ => c.hasDiffs s
  | .error _ => c.hasErrors s

theorem Extraction.take_of_failure {fails : Nat → Option StorageError} {s : Extraction}
    (h : s.failure.isSome = true) (m : SourceMessage) : s.take fails m = s := by
  cases m with
  | ok d => exact if_pos h
  | error e => rfl

/-- Extraction has both receivers until it fails. -/
def Extraction.consumer (fails : Nat → Option StorageError) : Consumer Extraction where
  next s
    | some m => s.take fails m
    | none => s
  hasDiffs s := s.failure.isNone
  hasErrors s := s.failure.isNone
  gone s m := by
    cases m with
    | none => exact ⟨id, id⟩
    | some m =>
      cases hs : s.failure with
      | none => exact ⟨fun _ => rfl, fun _ => rfl⟩
      | some e => simp [take_of_failure, hs]

/-! ## The loop and its consumer -/

/-- What happens to a file, to the loop that follows it and to the consumer. -/
inductive IntakeEvent where
  /-- Something happens to the file, or the loop comes to the end of a turn. -/
  | file (e : FileEvent)
  /-- The loop is cancelled, and notices it where it waits or sends. -/
  | cancel
  /-- The consumer receives a diff. -/
  | takeDiff
  /-- The consumer receives an error. -/
  | takeError
  /-- The consumer does something of its own accord. -/
  | act

namespace IntakeEvent

/-- Nothing is written, and nothing is cancelled. -/
def IsQuiet : IntakeEvent → Prop
  | .file (.write _) | .cancel => False
  | .file (.read _) | .file .turn | .takeDiff | .takeError | .act => True

/-- The number of turns that an event makes. -/
def turns : IntakeEvent → Nat
  | .file .turn => 1
  | .file (.write _) | .file (.read _) | .cancel | .takeDiff | .takeError | .act => 0

end IntakeEvent

/-- A file that is followed, and the consumer of what is sent. -/
structure Intake (σ : Type) where
  following : Following
  /-- Diffs that have been sent and not been received. -/
  diffs : List Diff
  /-- Errors that have been sent and not been received. -/
  errors : List StorageError
  consumer : σ
  /-- Whether the loop has ended. -/
  ended : Bool

namespace Intake

variable {σ : Type} (c : Consumer σ) (capacity : Nat)

def start (consumer : σ) : Intake σ := ⟨.start, [], [], consumer, false⟩

/-- Whether there is room for a message in its channel. -/
def hasRoom (s : Intake σ) : SourceMessage → Bool
  | .ok _ => s.diffs.length < capacity
  | .error _ => s.errors.length < capacity

/-- A message is sent. -/
def send (s : Intake σ) : SourceMessage → Intake σ
  | .ok d => { s with diffs := s.diffs ++ [d] }
  | .error e => { s with errors := s.errors ++ [e] }

/-- A turn of the loop. A message for which there is no room keeps the loop in its turn. -/
def turn (s : Intake σ) : Intake σ :=
  match s.following.tail.turn (c.receives s.consumer) with
  | .waits t => { s with following := { s.following with tail := t } }
  | .goesOn t none => { s with following := { s.following with tail := t } }
  | .goesOn t (some m) =>
    if s.hasRoom capacity m then { s.send m with following := ⟨t, s.following.sent ++ [m]⟩ } else s
  | .ends => { s with ended := true }

/-- The loop ends because it is cancelled, unless it has a line without a message before it. -/
def cancel (s : Intake σ) : Intake σ :=
  match s.following.tail.turn fun _ => true with
  | .goesOn t none => { s with following := { s.following with tail := t } }
  | .goesOn _ (some _) | .waits _ | .ends => { s with ended := true }

/-- One event. A loop that has ended does nothing any more. -/
def step (s : Intake σ) : IntakeEvent → Intake σ
  | .file e =>
    if s.ended then s
    else
      match e with
      | .turn => s.turn c capacity
      | .write _ | .read _ => { s with following := s.following.step e }
  | .cancel => if s.ended then s else s.cancel
  | .takeDiff =>
    match s.diffs with
    | [] => s
    | d :: rest =>
      if c.hasDiffs s.consumer then
        { s with diffs := rest, consumer := c.next s.consumer (some (.ok d)) }
      else s
  | .takeError =>
    match s.errors with
    | [] => s
    | e :: rest =>
      if c.hasErrors s.consumer then
        { s with errors := rest, consumer := c.next s.consumer (some (.error e)) }
      else s
  | .act => { s with consumer := c.next s.consumer none }

def run (s : Intake σ) (events : List IntakeEvent) : Intake σ := events.foldl (step c capacity) s

/-- The bytes that the loop has not dealt with. -/
def left (s : Intake σ) : List UInt8 := s.following.tail.pending ++ s.following.tail.unread

/-- What extraction returns, once the loop has ended and extraction has failed or has received
everything. -/
def result? (s : Intake Extraction) : Option (Except StorageError Unit) :=
  if s.ended && (s.consumer.failure.isSome || (s.diffs.isEmpty && s.errors.isEmpty)) then
    some (s.consumer.result (.ok ()))
  else none

/-! ## One turn -/

section

variable {c capacity} {s : Intake σ} {line rest : List UInt8} {lines : List (List UInt8)}

theorem turn_of_no_lines (hp : newline ∉ s.following.tail.pending) (h : Lines s.left [] rest) :
    s.turn c capacity = { s with following := { s.following with tail := ⟨rest, []⟩ } } := by
  rw [turn, Tail.turn_of_no_lines hp h]

/-- A turn with a line that has no message, with a message that can be sent or has to wait for room, and
with one that nobody receives. -/
theorem turn_of_lines (hp : newline ∉ s.following.tail.pending) (h : Lines s.left (line :: lines) rest) :
    s.turn c capacity =
      match lineMessage? line with
      | none => { s with following := { s.following with tail := ⟨[], lines.flatten ++ rest⟩ } }
      | some m =>
        if c.receives s.consumer m then
          if s.hasRoom capacity m then
            { s.send m with following := ⟨⟨[], lines.flatten ++ rest⟩, s.following.sent ++ [m]⟩ }
          else s
        else { s with ended := true } := by
  rw [turn, Tail.turn_of_lines hp h]
  cases lineMessage? line with
  | none => rfl
  | some m => cases hm : c.receives s.consumer m <;> simp [hm]

theorem ended_send (s : Intake σ) (m : SourceMessage) : (s.send m).ended = s.ended := by
  cases m <;> rfl

/-- A loop ends in a turn if the first line that it has not dealt with has a message that nobody
receives. -/
theorem ended_turn_iff (hp : newline ∉ s.following.tail.pending) (h : Lines s.left lines rest)
    (hended : s.ended = false) :
    (s.turn c capacity).ended = true ↔ ∃ line m, lines.head? = some line ∧
      lineMessage? line = some m ∧ c.receives s.consumer m = false := by
  cases lines with
  | nil => simp [turn_of_no_lines hp h, hended]
  | cons line lines =>
    rw [turn_of_lines hp h]
    cases hm : lineMessage? line with
    | none => simp [hended, hm]
    | some m =>
      cases hreceives : c.receives s.consumer m with
      | false => simp [hm, hreceives]
      | true =>
        by_cases hroom : s.hasRoom capacity m = true
        · simp [hm, hreceives, hroom, ended_send, hended]
        · simp [hm, hreceives, hroom, hended]

theorem not_mem_pending_turn (hp : newline ∉ s.following.tail.pending) :
    newline ∉ (s.turn c capacity).following.tail.pending := by
  obtain ⟨lines, rest, h⟩ := exists_lines s.left
  cases lines with
  | nil =>
    rw [turn_of_no_lines hp h]
    exact h.rest
  | cons line lines =>
    rw [turn_of_lines hp h]
    split
    · exact List.not_mem_nil
    · split
      · split
        · exact List.not_mem_nil
        · exact hp
      · exact hp

theorem not_mem_pending_cancel (hp : newline ∉ s.following.tail.pending) :
    newline ∉ s.cancel.following.tail.pending := by
  obtain ⟨lines, rest, h⟩ := exists_lines s.left
  cases lines with
  | nil =>
    rw [cancel, Tail.turn_of_no_lines hp h]
    exact hp
  | cons line lines =>
    rw [cancel, Tail.turn_of_lines_of_all hp h]
    cases lineMessage? line with
    | none => exact List.not_mem_nil
    | some m => exact hp

/-- The bytes that wait have no newline among them. -/
theorem not_mem_pending_step (hp : newline ∉ s.following.tail.pending) (e : IntakeEvent) :
    newline ∉ (s.step c capacity e).following.tail.pending := by
  cases e with
  | file e =>
    simp only [step]
    split
    · exact hp
    · cases e with
      | turn => exact not_mem_pending_turn hp
      | write bytes => exact hp
      | read size => exact Following.not_mem_pending_read hp size
  | cancel =>
    rw [step]
    split
    · exact hp
    · exact not_mem_pending_cancel hp
  | takeDiff | takeError =>
    simp only [step]
    split
    · exact hp
    · split <;> exact hp
  | act => exact hp

theorem not_mem_pending_run (hp : newline ∉ s.following.tail.pending) (events : List IntakeEvent) :
    newline ∉ (s.run c capacity events).following.tail.pending := by
  induction events generalizing s with
  | nil => exact hp
  | cons e events ih => exact ih (not_mem_pending_step hp e)

theorem ended_step (h : s.ended = true) (e : IntakeEvent) : (s.step c capacity e).ended = true := by
  cases e with
  | file | cancel => simp [step, h]
  | takeDiff | takeError =>
    simp only [step]
    split
    · exact h
    · split <;> exact h
  | act => exact h

theorem ended_run (h : s.ended = true) (events : List IntakeEvent) :
    (s.run c capacity events).ended = true := by
  induction events generalizing s with
  | nil => exact h
  | cons e events ih => exact ih (ended_step h e)

end

/-! ## Nobody receives -/

/-- Whether a finished line has a message. -/
def hasMessage (line : List UInt8) : Bool := (lineMessage? line).isSome

/-- A loop that goes on although both receivers are gone, with finished lines and what stands behind
them. -/
structure Deserted (s : Intake σ) (lines : List (List UInt8)) (rest : List UInt8) : Prop where
  lines : Lines s.left lines rest
  pending : newline ∉ s.following.tail.pending
  goesOn : s.ended = false
  diffs : c.hasDiffs s.consumer = false
  errors : c.hasErrors s.consumer = false

/-- The number of turns in a run. -/
def turnsIn : List IntakeEvent → Nat
  | [] => 0
  | e :: events => e.turns + turnsIn events

section

variable {c capacity} {s : Intake σ} {rest : List UInt8} {lines : List (List UInt8)}

theorem Deserted.receives (h : s.Deserted c lines rest) (m : SourceMessage) :
    c.receives s.consumer m = false := by
  cases m with
  | ok d => exact h.diffs
  | error e => exact h.errors

/-- A turn passes over a line without a message, and ends the loop at any other. -/
theorem Deserted.turn (h : s.Deserted c lines rest) :
    (s.turn c capacity).Deserted c (lines.drop 1) rest ∧ (lines.take 1).any hasMessage = false ∨
      (s.turn c capacity).ended = true ∧ (lines.take 1).any hasMessage = true := by
  cases lines with
  | nil =>
    rw [turn_of_no_lines h.pending h.lines]
    refine .inl ⟨⟨⟨?_, nofun, h.lines.rest⟩, h.lines.rest, h.goesOn, h.diffs, h.errors⟩, rfl⟩
    exact List.append_nil rest
  | cons line lines =>
    rw [turn_of_lines h.pending h.lines]
    cases hm : lineMessage? line with
    | none =>
      refine .inl ⟨⟨h.lines.tail, List.not_mem_nil, h.goesOn, h.diffs, h.errors⟩, ?_⟩
      simp [hasMessage, hm]
    | some m => exact .inr ⟨by simp [h.receives m], by simp [hasMessage, hm]⟩

/-- As long as nothing is written and nothing is cancelled, only turns make a difference. -/
theorem Deserted.step (h : s.Deserted c lines rest) {e : IntakeEvent} (he : e.IsQuiet) :
    (s.step c capacity e).Deserted c (lines.drop e.turns) rest ∧
        (lines.take e.turns).any hasMessage = false ∨
      (s.step c capacity e).ended = true ∧ (lines.take e.turns).any hasMessage = true := by
  cases e with
  | file e =>
    have hgoesOn : ¬ s.ended = true := by simp [h.goesOn]
    cases e with
    | write bytes => exact he.elim
    | turn =>
      simp only [Intake.step, if_neg hgoesOn]
      exact h.turn
    | read size =>
      simp only [Intake.step, if_neg hgoesOn]
      refine .inl ⟨⟨?_, Following.not_mem_pending_read h.pending size, h.goesOn, h.diffs, h.errors⟩, rfl⟩
      have hleft := s.following.pending_append_unread_read size
      change Lines (_ ++ _) lines rest
      rw [hleft]
      exact h.lines
  | cancel => exact he.elim
  | takeDiff =>
    have hstep : s.step c capacity .takeDiff = s := by
      simp only [Intake.step, h.diffs]
      split <;> rfl
    rw [hstep]
    exact .inl ⟨h, rfl⟩
  | takeError =>
    have hstep : s.step c capacity .takeError = s := by
      simp only [Intake.step, h.errors]
      split <;> rfl
    rw [hstep]
    exact .inl ⟨h, rfl⟩
  | act =>
    obtain ⟨hdiffs, herrors⟩ := c.gone s.consumer none
    refine .inl ⟨⟨h.lines, h.pending, h.goesOn, ?_, ?_⟩, rfl⟩
    · exact Bool.eq_false_iff.2 fun hnext => Bool.eq_false_iff.1 h.diffs (hdiffs hnext)
    · exact Bool.eq_false_iff.2 fun hnext => Bool.eq_false_iff.1 h.errors (herrors hnext)

/-- As many lines as there are turns are passed over, or a message among them has ended the loop. -/
theorem Deserted.run (h : s.Deserted c lines rest) {events : List IntakeEvent}
    (hevents : ∀ e ∈ events, e.IsQuiet) :
    (s.run c capacity events).Deserted c (lines.drop (turnsIn events)) rest ∧
        (lines.take (turnsIn events)).any hasMessage = false ∨
      (s.run c capacity events).ended = true ∧ (lines.take (turnsIn events)).any hasMessage = true := by
  induction events generalizing s lines with
  | nil => exact .inl ⟨h, rfl⟩
  | cons e events ih =>
    obtain ⟨he, hmore⟩ := List.forall_mem_cons.1 hevents
    rw [turnsIn, ← List.drop_drop, List.take_add, List.any_append]
    rcases h.step he with ⟨hstep, hfirst⟩ | ⟨hended, hfirst⟩
    · rw [hfirst, Bool.false_or]
      exact ih hstep hmore
    · exact .inr ⟨ended_run hended events, by rw [hfirst, Bool.true_or]⟩

/-- A loop that nobody receives from has ended if there was a message among the lines of its turns. -/
theorem Deserted.ended_run (h : s.Deserted c lines rest) {events : List IntakeEvent}
    (hevents : ∀ e ∈ events, e.IsQuiet) :
    (s.run c capacity events).ended = (lines.take (turnsIn events)).any hasMessage := by
  rcases h.run hevents with ⟨hrun, hnone⟩ | ⟨hended, hsome⟩
  · rw [hrun.goesOn, hnone]
  · rw [hended, hsome]

end

/-! ## A failure of extraction -/

section

variable {c capacity} {s : Intake σ}

theorem consumer_send (s : Intake σ) (m : SourceMessage) : (s.send m).consumer = s.consumer := by
  cases m <;> rfl

theorem consumer_turn (s : Intake σ) : (s.turn c capacity).consumer = s.consumer := by
  rw [turn]
  split
  · rfl
  · rfl
  · split
    · exact consumer_send s _
    · rfl
  · rfl

theorem consumer_cancel (s : Intake σ) : s.cancel.consumer = s.consumer := by
  rw [cancel]
  split <;> rfl

end

variable {fails : Nat → Option StorageError} {capacity} {s : Intake Extraction} {e : StorageError}

theorem consumer_step_of_failure (h : s.consumer.failure = some e) (event : IntakeEvent) :
    (s.step (Extraction.consumer fails) capacity event).consumer = s.consumer := by
  have hgone : s.consumer.failure.isNone = false := by rw [h]; rfl
  cases event with
  | file event =>
    simp only [step]
    split
    · rfl
    · cases event with
      | turn => exact consumer_turn s
      | write | read => rfl
  | cancel =>
    simp only [step]
    split
    · rfl
    · exact consumer_cancel s
  | takeDiff | takeError =>
    simp only [step, Extraction.consumer, hgone]
    split <;> rfl
  | act => rfl

/-- Once extraction has failed, nothing changes it. -/
theorem consumer_run_of_failure (h : s.consumer.failure = some e) (events : List IntakeEvent) :
    (s.run (Extraction.consumer fails) capacity events).consumer = s.consumer := by
  induction events generalizing s with
  | nil => rfl
  | cons event events ih =>
    have hstep : (s.step (Extraction.consumer fails) capacity event).consumer = s.consumer :=
      consumer_step_of_failure h event
    exact (ih (by rw [hstep, h])).trans hstep

/-- A failure is returned once the loop has ended, and not before. -/
theorem result?_of_failure (h : s.consumer.failure = some e) :
    s.result? = if s.ended then some (.error e) else none := by
  simp [result?, Extraction.result, h]

theorem result?_run_of_failure {lines : List (List UInt8)} {rest : List UInt8}
    (h : s.consumer.failure = some e) (hp : newline ∉ s.following.tail.pending)
    (hgoesOn : s.ended = false) (hlines : Lines s.left lines rest) {events : List IntakeEvent}
    (hevents : ∀ event ∈ events, event.IsQuiet) :
    (s.run (Extraction.consumer fails) capacity events).result? =
      if (lines.take (turnsIn events)).any hasMessage then some (.error e) else none := by
  have hgone : s.consumer.failure.isNone = false := by rw [h]; rfl
  have hdeserted : s.Deserted (Extraction.consumer fails) lines rest := ⟨hlines, hp, hgoesOn, hgone, hgone⟩
  have hfailure : (s.run (Extraction.consumer fails) capacity events).consumer.failure = some e := by
    rw [consumer_run_of_failure h, h]
  rw [result?_of_failure hfailure, hdeserted.ended_run hevents]

end Intake

/-- **A loop that nobody receives from ends at its next message, and else it waits.** In every state that a
loop and any consumer come to, with the receiver of diffs gone: the next turn ends the loop if the first
finished line that has not been dealt with has a diff, or an error whose receiver is gone too, and only
then. With no finished line left it waits for more to be written. So when extraction has failed, and as long
as nothing is written and nothing is cancelled, it returns its error when the loop comes to a line with a
message, and before that it returns nothing, however often the loop turns. -/
theorem returns_iff_message_left {σ : Type} (c : Consumer σ) (consumer : σ)
    (fails : Nat → Option StorageError) (stored : List Diff) (capacity : Nat)
    (events : List IntakeEvent) :
    let s := (Intake.start consumer).run c capacity events
    let extraction := Extraction.consumer fails
    let t := (Intake.start (.start stored)).run extraction capacity events
    (s.ended = false → c.hasDiffs s.consumer = false →
      ∃ lines rest, Lines s.left lines rest ∧
        ((s.step c capacity (.file .turn)).ended = true ↔ ∃ line m, lines.head? = some line ∧
          lineMessage? line = some m ∧ (c.hasErrors s.consumer = true → ∃ d, m = .ok d)) ∧
        (lines = [] → s.step c capacity (.file .turn) =
          { s with following := { s.following with tail := ⟨rest, []⟩ } })) ∧
    ∀ e, t.consumer.failure = some e →
      (t.ended = true → t.result? = some (.error e)) ∧
      (t.ended = false → ∃ lines rest, Lines t.left lines rest ∧
        ∀ more : List IntakeEvent, (∀ event ∈ more, event.IsQuiet) →
          (t.run extraction capacity more).result? =
            if (lines.take (Intake.turnsIn more)).any Intake.hasMessage then some (.error e)
            else none) := by
  intro s extraction t
  constructor
  · intro hgoesOn hdiffs
    have hp : newline ∉ s.following.tail.pending := Intake.not_mem_pending_run List.not_mem_nil events
    obtain ⟨lines, rest, hlines⟩ := exists_lines s.left
    have hstep : s.step c capacity (.file .turn) = s.turn c capacity := by
      simp only [Intake.step, hgoesOn]
      rfl
    have hreceives (m : SourceMessage) : c.receives s.consumer m = false ↔
        (c.hasErrors s.consumer = true → ∃ d, m = .ok d) := by
      cases m <;> simp [Consumer.receives, hdiffs]
    refine ⟨lines, rest, hlines, ?_, ?_⟩
    · rw [hstep, Intake.ended_turn_iff hp hlines hgoesOn]
      simp only [hreceives]
    · rintro rfl
      rw [hstep, Intake.turn_of_no_lines hp hlines]
  · intro e hfailure
    refine ⟨fun hended => ?_, fun hgoesOn => ?_⟩
    · rw [Intake.result?_of_failure hfailure, if_pos hended]
    · have hp : newline ∉ t.following.tail.pending :=
        Intake.not_mem_pending_run List.not_mem_nil events
      obtain ⟨lines, rest, hlines⟩ := exists_lines t.left
      exact ⟨lines, rest, hlines, fun more hmore =>
        Intake.result?_run_of_failure hfailure hp hgoesOn hlines hmore⟩

/-- The only write that is made fails, because the table cannot be reached. -/
def goneAtOnce (n : Nat) : Option StorageError := if n = 1 then some (.node (.transport "gone")) else none

/-- The row `1,2,3,4,5`. -/
def fiveFields : List UInt8 := [0x31, 0x2C, 0x32, 0x2C, 0x33, 0x2C, 0x34, 0x2C, 0x35, 0x0A]

/-- A row is written, with more behind it, and the diff of the row is sent and received. -/
def rowTaken (more : List UInt8) : List IntakeEvent :=
  [.file (.write (fiveFields ++ more)), .file .turn, .takeDiff]

/-- A line behind the row that cannot be written ends the loop. -/
theorem returns_iff_message_left_line :
    let s := (Intake.start (.start [])).run (Extraction.consumer goneAtOnce) 16 (rowTaken [0x78, 0x0A])
    s.consumer.failure = some (.node (.transport "gone")) ∧ s.ended = false ∧
      (s.run (Extraction.consumer goneAtOnce) 16 [.file .turn]).result? =
        some (.error (.node (.transport "gone"))) := by
  intro s
  have hfailure : s.consumer.failure = some (.node (.transport "gone")) := by decide +kernel
  have hgoesOn : s.ended = false := by decide +kernel
  refine ⟨hfailure, hgoesOn, ?_⟩
  obtain ⟨-, hreturns⟩ := (returns_iff_message_left (Extraction.consumer goneAtOnce) (.start [])
    goneAtOnce [] 16 (rowTaken [0x78, 0x0A])).2 _ hfailure
  obtain ⟨lines, rest, hlines, hmore⟩ := hreturns hgoesOn
  have hleft : Lines s.left [[0x78, 0x0A]] [] :=
    ⟨by decide +kernel, by simpa using ⟨[0x78], by decide, rfl⟩, List.not_mem_nil⟩
  obtain ⟨rfl, rfl⟩ := hlines.unique hleft
  rw [hmore _ (by simp [IntakeEvent.IsQuiet])]
  rfl

/-- Without a line behind the row, nothing is returned. -/
theorem waits_without_receiver :
    let c := Extraction.consumer goneAtOnce
    let s := (Intake.start (.start [])).run c 16 (rowTaken [])
    s.consumer.failure = some (.node (.transport "gone")) ∧ c.hasDiffs s.consumer = false ∧
      s.ended = false ∧ (s.step c 16 (.file .turn)).ended = false ∧
      (∀ n, (s.run c 16 (List.replicate n (.file .turn))).result? = none) ∧
      (Extraction.run goneAtOnce 16 (.start []) (Tail.fileBursts fiveFields) .waits).endedByItself =
        false := by
  intro c s
  have hfailure : s.consumer.failure = some (.node (.transport "gone")) := by decide +kernel
  have hgoesOn : s.ended = false := by decide +kernel
  have hlines : Lines s.left [] [] := ⟨by decide +kernel, nofun, List.not_mem_nil⟩
  have hp : newline ∉ s.following.tail.pending := by decide +kernel
  refine ⟨hfailure, by decide +kernel, hgoesOn, by decide +kernel, fun n => ?_, by decide +kernel⟩
  have hquiet : ∀ event ∈ List.replicate n (IntakeEvent.file .turn), event.IsQuiet := by
    intro event hevent
    rw [List.eq_of_mem_replicate hevent]
    trivial
  rw [Intake.result?_run_of_failure hfailure hp hgoesOn hlines hquiet, List.take_nil]
  rfl

end SlotIndex
