import Mathlib.Logic.Relation
import SlotIndex.Poller

/-!
# Moves of the poller

The poller goes on by itself until it has to wait. Its way there is cut into single moves here, so that
others can come in between: one row is passed on, a query is made, a poll is brought to its end.

* `PollerMove`, `Poller.move`: one move.
* `Poller.Goes`: one move, where a query is answered by a table.
* **`Poller.goes_settle`**: what the poller does by itself is made of such moves.
* `Poller.sent`, `Poller.coming`, `Poller.channelIds`: where the diffs are that it has been told of.
-/

namespace SlotIndex

/-- One move of the poller. -/
inductive PollerMove where
  /-- A poller that has been cancelled ends. -/
  | stop
  /-- A tick is followed, and the table answers with some rows. -/
  | poll (rows : List (Except StorageError StoredDiff))
  /-- The next row is passed over or sent on. -/
  | pass
  /-- The query comes to its end while the poller waits for room in the channel. -/
  | hold (ending : Option StorageError)
  /-- The poll comes to its end, with the failure of the query if that has not ended before. -/
  | finish (failure : Option StorageError)
  /-- The error of a failed poll is sent. -/
  | report

namespace Poller

/-- The next row, if it is passed over or there is room for it. -/
def passRow (s : Poller) (n : Nat) (lost : Bool) (ending : Option (Option StorageError)) :
    Except StorageError StoredDiff → List (Except StorageError StoredDiff) → Option Poller
  | .error _, rows => some { s with phase := .forwarding rows n lost ending }
  | .ok d, rows =>
    if lost then some { s with phase := .forwarding rows n lost ending }
    else if s.closed then some { s with phase := .forwarding rows (n + 1) true ending }
    else if s.hasRoom then
      some { s with
        cursor := max s.cursor d.id
        channel := s.channel ++ [.ok d]
        log := .forwarded d.id :: s.log
        phase := .forwarding rows (n + 1) lost ending }
    else none

/-- The poller behind a move, if it can make the move. -/
def move (s : Poller) : PollerMove → Option Poller
  | .stop =>
    match s.phase with
    | .waiting => if s.cancelled then some { s with phase := .ended } else none
    | _ => none
  | .poll rows =>
    match s.phase with
    | .waiting => if s.due && !s.cancelled then some (s.poll ⟨fun _ => rows, none⟩) else none
    | _ => none
  | .pass =>
    match s.phase with
    | .forwarding (row :: rows) n lost ending => s.passRow n lost ending row rows
    | _ => none
  | .hold ending =>
    match s.phase with
    | .forwarding rows n lost _ => some { s with phase := .forwarding rows n lost (some ending) }
    | _ => none
  | .finish failure =>
    match s.phase with
    | .forwarding [] n lost ending => some (s.finishPoll n lost (ending.getD failure))
    | _ => none
  | .report =>
    match s.phase with
    | .reporting e => if s.closed || s.hasRoom then some (s.report e) else none
    | _ => none

/-- One move, where a query is answered by a table. -/
def Goes (table : DiffSource) (s t : Poller) : Prop :=
  ∃ m, s.move m = some t ∧ ∀ rows, m = .poll rows → rows = table.rows s.cursor

open Relation (ReflTransGen)

variable (table : DiffSource)

theorem goes_forward (s : Poller) (failure : Option StorageError)
    (ending : Option (Option StorageError)) (n : Nat) (lost : Bool)
    (rows : List (Except StorageError StoredDiff)) :
    ReflTransGen (Goes table) { s with phase := .forwarding rows n lost ending }
      (s.forward failure ending n lost rows) := by
  -- The poller makes one move for each row, up to the first that finds the channel full.
  induction rows generalizing s n lost with
  | nil =>
    refine ReflTransGen.single ⟨.finish failure, ?_, nofun⟩
    simp only [move, forward, finishPoll]
  | cons row rows ih =>
    have hpass : ∀ {t u : Poller}, s.passRow n lost ending row rows = some t →
        ReflTransGen (Goes table) t u →
        ReflTransGen (Goes table) { s with phase := .forwarding (row :: rows) n lost ending } u := by
      intro t u ht hu
      exact ReflTransGen.head ⟨.pass, ht, nofun⟩ hu
    cases row with
    | error e => exact hpass rfl (ih s n lost)
    | ok d =>
      rw [forward]
      by_cases hlost : lost
      · rw [if_pos hlost]
        exact hpass (if_pos hlost) (ih s n lost)
      rw [if_neg hlost]
      by_cases hclosed : s.closed
      · rw [if_pos hclosed]
        refine hpass ?_ (ih s (n + 1) true)
        rw [passRow, if_neg hlost, if_pos hclosed]
      rw [if_neg hclosed]
      by_cases hroom : s.hasRoom
      · rw [if_pos hroom]
        refine hpass ?_ (ih _ (n + 1) lost)
        rw [passRow, if_neg hlost, if_neg hclosed, if_pos hroom]
      · rw [if_neg hroom]
        simp only
        split
        · exact ReflTransGen.single ⟨.hold (ending.getD failure), rfl, nofun⟩
        · exact ReflTransGen.refl

theorem goes_advance (s : Poller) (failure : Option StorageError) :
    ReflTransGen (Goes table) s (s.advance failure) := by
  -- An error that is to be reported takes one move more, or waits for room.
  have hreport : ∀ s : Poller, ReflTransGen (Goes table) s
      (match s.phase with
      | .reporting e => s.report e
      | _ => s) := by
    intro s
    split
    · rename_i e hphase
      by_cases hroom : s.closed || s.hasRoom
      · refine ReflTransGen.single ⟨.report, ?_, nofun⟩
        rw [move]
        simp only [hphase]
        rw [if_pos hroom]
      · rw [Bool.not_eq_true, Bool.or_eq_false_iff] at hroom
        have hwaits : s.report e = s := by
          rw [report, if_neg (by simp [hroom.1]), if_neg (by simp [hroom.2]), ← hphase]
        rw [hwaits]
    · exact ReflTransGen.refl
  rw [advance]
  refine ReflTransGen.trans ?_ (hreport _)
  split
  · rename_i rows n lost ending hphase
    have hs : s = { s with phase := .forwarding rows n lost ending } := by rw [← hphase]
    have hforward := goes_forward table s failure ending n lost rows
    rwa [← hs] at hforward
  · exact ReflTransGen.refl

/-- **What the poller does by itself is made of moves**, and its queries are answered by the table. -/
theorem goes_settle (s : Poller) : ReflTransGen (Goes table) s (s.settle table) := by
  refine (goes_advance table s table.failure).trans ?_
  rw [settle]
  generalize s.advance table.failure = s
  unfold awake
  split
  · rename_i hphase
    by_cases hcancelled : s.cancelled
    · rw [if_pos hcancelled]
      refine ReflTransGen.single ⟨.stop, ?_, nofun⟩
      rw [move]
      simp only [hphase]
      rw [if_pos hcancelled]
    rw [if_neg hcancelled]
    by_cases hdue : s.due
    · rw [if_pos hdue]
      refine ReflTransGen.head ⟨.poll (table.rows s.cursor), ?_, ?_⟩ (goes_advance table _ _)
      · rw [move]
        simp only [hphase, hdue, hcancelled]
        rfl
      · rintro rows ⟨⟩
        rfl
    · rw [if_neg hdue]
  · exact ReflTransGen.refl

/-! ## Where the diffs are -/

/-- The ids of the diffs among some items, without the errors. -/
def idsOf (items : List (Except StorageError StoredDiff)) : List DiffId :=
  (items.filterMap Except.toOption).map StoredDiff.id

/-- The ids that have been sent, in order. -/
def sent (s : Poller) : List DiffId :=
  s.log.reverse.filterMap fun
    | .forwarded id => some id
    | _ => none

/-- The ids that have been sent and not been taken. -/
def waitingIds (s : Poller) : List DiffId := idsOf s.channel

/-- The ids that have been listed by the last query and not been sent. -/
def coming (s : Poller) : List DiffId :=
  match s.phase with
  | .forwarding rows _ _ _ => idsOf rows
  | _ => []

/-- The receiver of the channel is there, and has been there for all items of the last query. -/
structure IsHeard (s : Poller) : Prop where
  closed : s.closed = false
  lost {rows : List (Except StorageError StoredDiff)} {n : Nat} {lost : Bool}
    {ending : Option (Option StorageError)} : s.phase = .forwarding rows n lost ending → lost = false

theorem idsOf_append (items more : List (Except StorageError StoredDiff)) :
    idsOf (items ++ more) = idsOf items ++ idsOf more := by
  rw [idsOf, List.filterMap_append, List.map_append]
  rfl

@[simp] theorem idsOf_ok (d : StoredDiff) (items : List (Except StorageError StoredDiff)) :
    idsOf (.ok d :: items) = d.id :: idsOf items := rfl

@[simp] theorem idsOf_error (e : StorageError) (items : List (Except StorageError StoredDiff)) :
    idsOf (.error e :: items) = idsOf items := rfl

/-- What a poller has sent, what is waiting and coming, and its cursor, stay as they are. -/
structure Keeps (s t : Poller) : Prop where
  sent : t.sent = s.sent
  coming : t.coming = s.coming
  waitingIds : t.waitingIds = s.waitingIds
  cursor : t.cursor = s.cursor ∨ s.waitingIds = [] ∧ s.coming = []

/-- The first id that is coming is sent. -/
structure Sends (s t : Poller) (id : DiffId) : Prop where
  sent : t.sent = s.sent ++ [id]
  coming : s.coming = id :: t.coming
  waitingIds : t.waitingIds = s.waitingIds ++ [id]
  cursor : t.cursor = max s.cursor id

/-- A query is made, and it lists some ids. -/
structure Asks (s t : Poller) (ids : List DiffId) : Prop where
  sent : t.sent = s.sent
  coming : s.coming = []
  listed : t.coming = ids
  waitingIds : t.waitingIds = s.waitingIds
  cursor : t.cursor = s.cursor

variable {s t : Poller}

theorem asks_of_move {rows : List (Except StorageError StoredDiff)}
    (h : s.move (.poll rows) = some t) (hs : s.IsHeard) : s.Asks t (idsOf rows) ∧ t.IsHeard := by
  simp only [move] at h
  split at h
  · rename_i hphase
    obtain ⟨-, h⟩ := Option.ite_none_right_eq_some.1 h
    cases h
    have hcoming : s.coming = [] := by simp only [coming, hphase]
    refine ⟨⟨?_, hcoming, rfl, rfl, rfl⟩, hs.closed, ?_⟩
    · simp [poll, sent]
    · rintro _ _ _ _ ⟨⟩
      rfl
  · contradiction

theorem sends_or_keeps_of_passRow {row : Except StorageError StoredDiff}
    {rows : List (Except StorageError StoredDiff)} {n : Nat} {lost : Bool}
    {ending : Option (Option StorageError)} (hs : s.IsHeard)
    (hphase : s.phase = .forwarding (row :: rows) n lost ending)
    (h : s.passRow n lost ending row rows = some t) :
    ((∃ id, s.Sends t id) ∨ s.Keeps t) ∧ t.IsHeard := by
  obtain rfl := hs.lost hphase
  have hcoming : s.coming = idsOf (row :: rows) := by simp only [coming, hphase]
  cases row with
  | error e =>
    cases h
    refine ⟨.inr ⟨rfl, hcoming.symm, rfl, .inl rfl⟩, hs.closed, ?_⟩
    rintro _ _ _ _ ⟨⟩
    rfl
  | ok d =>
    simp only [passRow, hs.closed, Bool.false_eq_true, if_false] at h
    obtain ⟨-, h⟩ := Option.ite_none_right_eq_some.1 h
    cases h
    refine ⟨.inl ⟨d.id, ⟨?_, hcoming, idsOf_append _ _, rfl⟩⟩, rfl, ?_⟩
    · simp [sent]
    · rintro _ _ _ _ ⟨⟩
      rfl

theorem keeps_finishPoll {n : Nat} {ending : Option (Option StorageError)} (hs : s.IsHeard)
    (hphase : s.phase = .forwarding [] n false ending) (failure : Option StorageError) :
    s.Keeps (s.finishPoll n false failure) ∧ (s.finishPoll n false failure).IsHeard := by
  have hcoming : s.coming = [] := by simp only [coming, hphase]; rfl
  cases failure with
  | some e => exact ⟨⟨rfl, hcoming.symm, rfl, .inl rfl⟩, hs.closed, nofun⟩
  | none =>
    simp only [finishPoll, Bool.false_eq_true, if_false]
    split
    · rename_i hempty
      refine ⟨⟨?_, hcoming.symm, rfl, .inr ⟨?_, hcoming⟩⟩, hs.closed, nofun⟩
      · simp [sent]
      · rw [waitingIds, hempty.2]
        rfl
    · exact ⟨⟨rfl, hcoming.symm, rfl, .inl rfl⟩, hs.closed, nofun⟩

theorem keeps_report {e : StorageError} (hs : s.IsHeard) (hphase : s.phase = .reporting e) :
    s.Keeps (s.report e) ∧ (s.report e).IsHeard := by
  have hcoming : s.coming = [] := by simp only [coming, hphase]
  simp only [report, hs.closed, Bool.false_eq_true, if_false]
  split
  · refine ⟨⟨?_, hcoming.symm, ?_, .inl rfl⟩, rfl, nofun⟩
    · simp [sent]
    · exact (idsOf_append _ _).trans (List.append_nil _)
  · exact ⟨⟨rfl, hcoming.symm, rfl, .inl rfl⟩, rfl, nofun⟩

/-- **A move that is no query** sends the first id that is coming, or none. The cursor goes back only
while nothing is waiting and nothing is coming. -/
theorem sends_or_keeps_of_move (hs : s.IsHeard) {m : PollerMove} (h : s.move m = some t)
    (hm : ∀ rows, m ≠ .poll rows) : ((∃ id, s.Sends t id) ∨ s.Keeps t) ∧ t.IsHeard := by
  cases m with
  | poll rows => exact absurd rfl (hm rows)
  | stop =>
    simp only [move] at h
    split at h
    · rename_i hphase
      obtain ⟨-, h⟩ := Option.ite_none_right_eq_some.1 h
      cases h
      have hcoming : s.coming = [] := by simp only [coming, hphase]
      exact ⟨.inr ⟨rfl, hcoming.symm, rfl, .inl rfl⟩, hs.closed, nofun⟩
    · contradiction
  | pass =>
    simp only [move] at h
    split at h
    · rename_i hphase
      exact sends_or_keeps_of_passRow hs hphase h
    · contradiction
  | hold ending =>
    simp only [move] at h
    split at h
    · rename_i rows n lost _ hphase
      cases h
      have hcoming : s.coming = idsOf rows := by simp only [coming, hphase]
      refine ⟨.inr ⟨rfl, hcoming.symm, rfl, .inl rfl⟩, hs.closed, ?_⟩
      rintro _ _ _ _ ⟨⟩
      exact hs.lost hphase
    · contradiction
  | finish failure =>
    simp only [move] at h
    split at h
    · rename_i hphase
      obtain rfl := hs.lost hphase
      cases h
      exact (keeps_finishPoll hs hphase _).imp_left .inr
    · contradiction
  | report =>
    simp only [move] at h
    split at h
    · rename_i hphase
      obtain ⟨-, h⟩ := Option.ite_none_right_eq_some.1 h
      cases h
      exact (keeps_report hs hphase).imp_left .inr
    · contradiction

end Poller

end SlotIndex
