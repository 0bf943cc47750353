import SlotIndex.Proofs.Poller.Moves

/-!
# Histories of a poller

What a poller has done, the latest first: the queries and their answers, the items that it has sent, the
ends of its polls and the resets of its cursor. Which note may follow which says what a poller may do.

* `PollNote`: a note.
* `PollHistory.sinceReset`, `inPoll`, `answer`, `items`: what a history tells of what has been sent.
* `PollHistory.Follows`, `PollHistory.Kept`: which notes may follow which.
* `Kept.ascending`, `Kept.eq_reset`, **`Kept.after_failure`**: what this comes to.
-/

namespace SlotIndex

open Poller (idsOf)

inductive PollNote where
  | asked (minId : DiffId)
  /-- The table has answered the query. -/
  | answered (rows : List (Except StorageError StoredDiff))
  | sent (item : PollItem)
  /-- A poll has come to its end. `failure` is how the query has ended, `empty` says whether the channel
  was empty, and `lost` whether a row was left because the receiver had gone. -/
  | finished (failure : Option StorageError) (empty lost : Bool)
  | reset

/-- What stands in the log of the poller for a note. -/
def PollNote.event? : PollNote → Option PollEvent
  | .asked minId => some (.polled minId)
  | .sent (.ok d) => some (.forwarded d.id)
  | .sent (.error e) => some (.reported e)
  | .reset => some .reset
  | .answered _ | .finished .. => none

/-- The rows of an answer that can be read. -/
def readable (rows : List (Except StorageError StoredDiff)) : List StoredDiff :=
  rows.filterMap Except.toOption

/-- Whether rows answer a query as they should: those that can be read lie above the cursor and are in the
order of their ids. The others may stand anywhere. -/
def Honours (minId : DiffId) (rows : List (Except StorageError StoredDiff)) : Prop :=
  (minId :: idsOf rows).Pairwise (· < ·)

instance (minId : DiffId) (rows : List (Except StorageError StoredDiff)) :
    Decidable (Honours minId rows) := inferInstanceAs (Decidable (List.Pairwise _ _))

/-- The largest of some ids, or zero if there is none. -/
def IsCursor (ids : List DiffId) (cursor : DiffId) : Prop :=
  ids = [] ∧ cursor = 0 ∨ cursor ∈ ids ∧ ∀ id ∈ ids, id ≤ cursor

namespace PollHistory

/-- The items that have been sent, in order. -/
def items : List PollNote → List PollItem
  | [] => []
  | .sent item :: earlier => items earlier ++ [item]
  | _ :: earlier => items earlier

/-- The ids that have been sent since the cursor was put back, in order. -/
def sinceReset : List PollNote → List DiffId
  | [] | .reset :: _ => []
  | .sent (.ok d) :: earlier => sinceReset earlier ++ [d.id]
  | _ :: earlier => sinceReset earlier

/-- The diffs that have been sent in the last poll, in order. -/
def inPoll : List PollNote → List StoredDiff
  | [] | .asked _ :: _ => []
  | .sent (.ok d) :: earlier => inPoll earlier ++ [d]
  | _ :: earlier => inPoll earlier

/-- The last answer of the table. -/
def answer : List PollNote → List (Except StorageError StoredDiff)
  | [] => []
  | .answered rows :: _ => rows
  | _ :: earlier => answer earlier

/-- Whether a poll is under way that the table has answered. -/
def isOpen : List PollNote → Bool
  | .answered _ :: _ | .sent (.ok _) :: _ => true
  | _ => false

/-- Whether the next poll may come: the last one has been brought to its end, and the cursor has been put
back if it had to be. -/
def isBetween : List PollNote → Bool
  | [] | .reset :: _ => true
  | .finished none empty false :: earlier => !(empty && (inPoll earlier).isEmpty)
  | _ => false

/-- Whether a note may follow a history. -/
def Follows (earlier : List PollNote) : PollNote → Prop
  | .asked minId => isBetween earlier = true ∧ IsCursor (sinceReset earlier) minId
  | .answered rows => ∃ minId before, earlier = .asked minId :: before ∧ Honours minId rows
  | .sent (.ok d) => isOpen earlier = true ∧ (inPoll earlier ++ [d]) <+: readable (answer earlier) ∧
      ∀ j ∈ sinceReset earlier, j < d.id
  | .finished _ _ lost => isOpen earlier = true ∧ inPoll earlier <+: readable (answer earlier) ∧
      (lost = false → inPoll earlier = readable (answer earlier))
  | .reset => inPoll earlier = [] ∧ ∃ before, earlier = .finished none true false :: before
  | .sent (.error e) => ∃ empty lost before, earlier = .finished (some e) empty lost :: before

/-- Whether each note of a history may follow those before it. -/
def Kept : List PollNote → Prop
  | [] => True
  | x :: earlier => Follows earlier x ∧ Kept earlier

/-- What may follow when no poll is under way: the next poll, a reset of the cursor, or the report of an
error. -/
theorem Follows.of_not_open {earlier : List PollNote} {x : PollNote} (h : Follows earlier x)
    (hopen : isOpen earlier = false) (hasked : ∀ minId before, earlier ≠ .asked minId :: before) :
    isBetween earlier = true ∨
      (x = .reset ∧ ∃ before, earlier = .finished none true false :: before) ∨
      ∃ e empty lost before, x = .sent (.error e) ∧
        earlier = .finished (some e) empty lost :: before := by
  cases x with
  | asked minId => exact .inl h.1
  | answered rows =>
    obtain ⟨minId, before, heq, -⟩ := h
    exact absurd heq (hasked minId before)
  | finished failure empty lost => exact absurd (hopen.symm.trans h.1) Bool.false_ne_true
  | reset => exact .inr (.inl ⟨rfl, h.2⟩)
  | sent item =>
    cases item with
    | ok d => exact absurd (hopen.symm.trans h.1) Bool.false_ne_true
    | error e =>
      obtain ⟨empty, lost, before, heq⟩ := h
      exact .inr (.inr ⟨e, empty, lost, before, rfl, heq⟩)

namespace Kept

variable {later earlier : List PollNote} {x : PollNote}

theorem follows (h : Kept (later ++ x :: earlier)) : Follows earlier x := by
  induction later with
  | nil => exact h.1
  | cons y later ih => exact ih h.2

theorem of_append (h : Kept (later ++ earlier)) : Kept earlier := by
  induction later with
  | nil => exact h
  | cons y later ih => exact ih h.2

/-- **The ids that are sent ascend**, from one reset of the cursor to the next. -/
theorem ascending {history : List PollNote} (h : Kept history) :
    (sinceReset history).Pairwise (· < ·) := by
  induction history with
  | nil => exact List.Pairwise.nil
  | cons x earlier ih =>
    have hearlier := ih h.2
    cases x with
    | asked minId => exact hearlier
    | answered rows => exact hearlier
    | finished failure empty lost => exact hearlier
    | reset => exact List.Pairwise.nil
    | sent item =>
      cases item with
      | error e => exact hearlier
      | ok d =>
        refine List.pairwise_append.2 ⟨hearlier, List.pairwise_singleton _ _, fun j hj i hi => ?_⟩
        rw [List.mem_singleton.1 hi]
        exact h.1.2.2 j hj

/-- After a poll that has sent nothing and finds the channel empty, the cursor is put back first. -/
theorem eq_reset (h : Kept (later ++ x :: .finished none true false :: earlier))
    (hnone : inPoll earlier = []) : x = .reset := by
  have hclosed : isBetween (.finished none true false :: earlier) = false := by
    rw [isBetween, hnone]
    rfl
  rcases h.follows.of_not_open rfl (fun _ _ heq => by cases heq) with
    hbetween | ⟨rfl, -⟩ | ⟨e, empty, lost, before, -, heq⟩
  · exact absurd (hclosed.symm.trans hbetween) Bool.false_ne_true
  · rfl
  · cases heq

/-- Nothing follows the report of an error. -/
theorem eq_nil_of_reported {e : StorageError} (h : Kept (later ++ .sent (.error e) :: earlier)) :
    later = [] := by
  rcases later.eq_nil_or_concat with rfl | ⟨later, x, rfl⟩
  · rfl
  rw [List.concat_eq_append, List.append_assoc, List.singleton_append] at h
  rcases h.follows.of_not_open rfl (fun _ _ heq => by cases heq) with
    hbetween | ⟨-, before, heq⟩ | ⟨e, empty, lost, before, -, heq⟩
  · cases hbetween
  · cases heq
  · cases heq

/-- **After a poll that has failed** nothing comes but the report of its error. -/
theorem after_failure {e : StorageError} {empty lost : Bool}
    (h : Kept (later ++ .finished (some e) empty lost :: earlier)) :
    later = [] ∨ later = [.sent (.error e)] := by
  rcases later.eq_nil_or_concat with rfl | ⟨later, x, rfl⟩
  · exact .inl rfl
  rw [List.concat_eq_append, List.append_assoc, List.singleton_append] at h
  rcases h.follows.of_not_open rfl (fun _ _ heq => by cases heq) with
    hbetween | ⟨-, before, heq⟩ | ⟨e', empty', lost', before, rfl, heq⟩
  · cases hbetween
  · cases heq
  · cases heq
    rw [h.eq_nil_of_reported]
    exact .inr rfl

end Kept

end PollHistory

end SlotIndex
