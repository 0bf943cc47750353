import SlotIndex.Proofs.Poller.Moves
import SlotIndex.Proofs.Poller.Whereabouts

/-!
# The poller and the watcher

The poller sends the unchecked rows of the table to a watcher, which takes one diff at a time and marks it
as checked when it has dealt with it. A diff that has been sent is not listed again while it waits in the
channel, since the cursor stands above it. But the cursor goes back once the channel is empty, and then
the watcher may still have the last diff in hand: it is unchecked, and the next query lists it again.

* `Relay`: the table, the poller, the channel and the watcher; `Relay.step`: what can happen.
* `Relay.Sound`: where every diff is that has been sent.
* **`Relay.count_of_run`**: a diff is sent once, and a second time exactly if a query has listed it while
  the watcher had it in hand.
* `Relay.sent_twice`: a run in which that happens.
-/

namespace SlotIndex

open Poller (idsOf idsOf_error)

/-- The rows with which the table answers, if the move is a query. -/
def PollerMove.rows : PollerMove → List (Except StorageError StoredDiff)
  | .poll rows => rows
  | _ => []

/-- The table, the poller with its channel, and the watcher. -/
structure Relay where
  poller : Poller
  /-- The rows that are not checked, without those that cannot be read. -/
  unchecked : List StoredDiff
  checked : List DiffId
  /-- The diff that the watcher has taken and not marked yet. -/
  inHand : Option StoredDiff
  /-- The ids that a query has listed while the watcher had their diffs in hand. -/
  overtaken : List DiffId

/-- What can happen. -/
inductive RelayEvent where
  /-- A row with a new id is written. -/
  | insert (d : StoredDiff)
  | tick
  | cancel
  | move (m : PollerMove)
  /-- The watcher, with nothing in hand, takes the next item. -/
  | take
  /-- The watcher marks the diff that it has in hand. -/
  | mark

namespace Relay

/-- The id of the diff that the watcher has in hand. -/
def heldId (s : Relay) : Option DiffId := s.inHand.map StoredDiff.id

/-- Whether an answer lists unchecked rows above the cursor, in the order of their ids. Rows that cannot
be read may stand anywhere, and a query that fails may end early. -/
def Answers (s : Relay) (rows : List (Except StorageError StoredDiff)) : Prop :=
  (rows.filterMap Except.toOption).Pairwise (·.id < ·.id) ∧
    ∀ d ∈ rows.filterMap Except.toOption, d ∈ s.unchecked ∧ s.poller.cursor < d.id

instance (s : Relay) (rows : List (Except StorageError StoredDiff)) : Decidable (s.Answers rows) :=
  inferInstanceAs (Decidable (_ ∧ _))

/-- One event, if it can happen. -/
def step (s : Relay) : RelayEvent → Option Relay
  | .insert d =>
    if d.id ∈ s.checked ∨ d.id ∈ s.unchecked.map StoredDiff.id then none
    else some { s with unchecked := s.unchecked ++ [d] }
  | .tick => some { s with poller := { s.poller with due := true } }
  | .cancel => some { s with poller := s.poller.cancel }
  | .move m =>
    if s.Answers m.rows then
      (s.poller.move m).map fun poller =>
        { s with
          poller
          overtaken := s.overtaken ++ (idsOf m.rows).filter fun id => s.heldId = some id }
    else none
  | .take =>
    if s.inHand.isSome then none
    else s.poller.receive.map fun r => { s with poller := r.2, inHand := r.1.toOption }
  | .mark =>
    s.inHand.map fun d =>
      { s with
        unchecked := s.unchecked.filter fun e => e.id ≠ d.id
        checked := d.id :: s.checked
        inHand := none }

def run (s : Relay) (events : List RelayEvent) : Option Relay := events.foldlM step s

/-- A table with unchecked rows and a poller that has not begun. -/
def start (rows : List StoredDiff) (capacity : Nat) : Relay :=
  ⟨Poller.initial capacity false, rows, [], none, []⟩

/-! ## What holds at any time -/

def whereabouts (s : Relay) : Whereabouts where
  sent := s.poller.sent
  coming := s.poller.coming
  waiting := s.poller.waitingIds
  cursor := s.poller.cursor
  held := s.heldId
  unchecked := s.unchecked.map StoredDiff.id
  checked := s.checked
  overtaken := s.overtaken

/-- The ids that have been sent, and those that will be sent before the table is asked again. -/
def told (s : Relay) : List DiffId := s.poller.sent ++ s.poller.coming

/-- The watcher listens, and every diff is where it should be. -/
structure Sound (s : Relay) : Prop where
  heard : s.poller.IsHeard
  placed : s.whereabouts.Sound

variable {s t : Relay}

theorem sound_start (rows : List StoredDiff) (capacity : Nat) : (start rows capacity).Sound where
  heard := ⟨rfl, nofun⟩
  placed := by
    constructor
    case not_checked => exact fun _ _ => List.not_mem_nil
    case coming_sorted => exact List.Pairwise.nil
    all_goals exact nofun

theorem Sound.insert (hs : s.Sound) {d : StoredDiff} (h : s.step (.insert d) = some t) :
    t.Sound := by
  rw [Relay.step, Option.ite_none_left_eq_some] at h
  obtain ⟨hnew, h⟩ := h
  cases h
  have hinsert := hs.placed.insert (not_or.1 hnew).1
  refine ⟨hs.heard, ?_⟩
  rw [Relay.whereabouts, List.map_append]
  exact hinsert

theorem Sound.poll (hs : s.Sound) {rows : List (Except StorageError StoredDiff)}
    (h : s.step (.move (.poll rows)) = some t) : t.Sound := by
  rw [Relay.step, Option.ite_none_right_eq_some] at h
  obtain ⟨⟨hsorted, hlisted⟩, h⟩ := h
  obtain ⟨p, hmove, rfl⟩ := Option.map_eq_some_iff.1 h
  obtain ⟨hasks, hheard⟩ := Poller.asks_of_move hmove hs.heard
  have hids : ∀ id ∈ idsOf rows, id ∈ s.unchecked.map StoredDiff.id ∧ s.poller.cursor < id := by
    intro id hid
    obtain ⟨d, hd, rfl⟩ := List.mem_map.1 hid
    obtain ⟨hmem, hlt⟩ := hlisted d hd
    exact ⟨List.mem_map_of_mem hmem, hlt⟩
  have hask := hs.placed.ask hasks.coming (List.pairwise_map.2 hsorted) hids
  refine ⟨hheard, ?_⟩
  rw [Relay.whereabouts, hasks.sent, hasks.listed, hasks.waitingIds, hasks.cursor]
  exact hask

theorem Sound.move (hs : s.Sound) {m : PollerMove} (hm : ∀ rows, m ≠ .poll rows)
    (h : s.step (.move m) = some t) : t.Sound := by
  have hrows : m.rows = [] := by
    cases m with
    | poll rows => exact absurd rfl (hm rows)
    | stop | pass | hold | finish | report => rfl
  rw [Relay.step, Option.ite_none_right_eq_some] at h
  obtain ⟨p, hmove, rfl⟩ := Option.map_eq_some_iff.1 h.2
  obtain ⟨hchange, hheard⟩ := Poller.sends_or_keeps_of_move hs.heard hmove hm
  refine ⟨hheard, ?_⟩
  rw [hrows, Relay.whereabouts]
  change Whereabouts.Sound ⟨p.sent, p.coming, p.waitingIds, p.cursor, s.heldId,
    s.unchecked.map StoredDiff.id, s.checked, s.overtaken ++ []⟩
  rw [List.append_nil]
  rcases hchange with ⟨id, hsends⟩ | hkeeps
  · rw [hsends.sent, hsends.waitingIds, hsends.cursor]
    exact hs.placed.send hsends.coming
  · rw [hkeeps.sent, hkeeps.coming, hkeeps.waitingIds]
    rcases hkeeps.cursor with hcursor | ⟨hwaiting, hcoming⟩
    · rw [hcursor]
      exact hs.placed
    · exact hs.placed.reset hwaiting hcoming p.cursor

theorem Sound.take (hs : s.Sound) (h : s.step .take = some t) : t.Sound := by
  rw [Relay.step, Option.ite_none_left_eq_some] at h
  obtain ⟨hheld, h⟩ := h
  rw [Option.not_isSome_iff_eq_none] at hheld
  obtain ⟨⟨item, p⟩, hreceive, rfl⟩ := Option.map_eq_some_iff.1 h
  have hnone : s.whereabouts.held = none := by
    change s.inHand.map StoredDiff.id = none
    rw [hheld, Option.map_none]
  rw [Poller.receive] at hreceive
  split at hreceive
  · contradiction
  · rename_i rest hchannel
    cases hreceive
    have hwaiting : s.whereabouts.waiting = idsOf (item :: rest) := congrArg idsOf hchannel
    refine ⟨⟨hs.heard.closed, hs.heard.lost⟩, ?_⟩
    cases item with
    | ok d => exact hs.placed.take hnone hwaiting
    | error e =>
      -- An error is no diff, so every diff is where it was.
      have hsame : s.whereabouts =
          { s.whereabouts with waiting := idsOf rest, held := none } := by
        rw [← hnone, ← idsOf_error e rest, ← hwaiting]
      have hplaced := hs.placed
      rw [hsame] at hplaced
      exact hplaced

theorem Sound.mark (hs : s.Sound) (h : s.step .mark = some t) : t.Sound := by
  obtain ⟨d, hd, rfl⟩ := Option.map_eq_some_iff.1 h
  have hheld : s.whereabouts.held = some d.id := by
    change s.inHand.map StoredDiff.id = some d.id
    rw [hd, Option.map_some]
  have hmark := hs.placed.mark hheld
  have hids : (s.unchecked.filter fun e => e.id ≠ d.id).map StoredDiff.id =
      (s.unchecked.map StoredDiff.id).filter fun j => j ≠ d.id := by
    rw [List.filter_map]
    rfl
  refine ⟨hs.heard, ?_⟩
  rw [Relay.whereabouts, hids]
  exact hmark

theorem Sound.step (hs : s.Sound) {e : RelayEvent} (h : s.step e = some t) : t.Sound := by
  cases e with
  | insert d => exact hs.insert h
  | tick =>
    cases h
    exact ⟨⟨hs.heard.closed, hs.heard.lost⟩, hs.placed⟩
  | cancel =>
    cases h
    exact ⟨⟨hs.heard.closed, hs.heard.lost⟩, hs.placed⟩
  | move m =>
    cases m with
    | poll rows => exact hs.poll h
    | stop | pass | hold | finish | report => exact hs.move (fun _ => PollerMove.noConfusion) h
  | take => exact hs.take h
  | mark => exact hs.mark h

theorem run_append (s : Relay) (events more : List RelayEvent) :
    s.run (events ++ more) = (s.run events).bind fun t => t.run more :=
  List.foldlM_append

theorem Sound.run (hs : s.Sound) {events : List RelayEvent} (h : s.run events = some t) :
    t.Sound := by
  induction events generalizing s with
  | nil =>
    cases h
    exact hs
  | cons e events ih =>
    obtain ⟨s', hstep, hrun⟩ := Option.bind_eq_some_iff.1 h
    exact ih (hs.step hstep) hrun

/-- **How often a diff is sent.** In every run, each id that has been sent or is about to be sent is so
once, but for those that a query has listed while the watcher had their diffs in hand: these are sent
twice. So no id is told a second time exactly if no query has listed the diff in hand, and then none is
sent a second time. -/
theorem count_of_run {rows : List StoredDiff} {capacity : Nat} {events : List RelayEvent}
    (h : (start rows capacity).run events = some s) :
    (∀ id ∈ s.told, s.told.count id = if id ∈ s.overtaken then 2 else 1) ∧
      (s.told.Nodup ↔ s.overtaken = []) ∧ (s.overtaken = [] → s.poller.sent.Nodup) := by
  have hsound := ((sound_start rows capacity).run h).placed
  have hcount : ∀ id ∈ s.told, s.told.count id = if id ∈ s.overtaken then 2 else 1 := hsound.count
  have hiff : s.told.Nodup ↔ s.overtaken = [] := by
    constructor
    · intro hnodup
      rw [List.eq_nil_iff_forall_not_mem]
      intro id hid
      have htold : id ∈ s.told := hsound.overtaken_told id hid
      have htwice := hcount id htold
      rw [if_pos hid, List.count_eq_one_of_mem hnodup htold] at htwice
      contradiction
    · intro hnone
      rw [List.nodup_iff_count_le_one]
      intro id
      by_cases htold : id ∈ s.told
      · have hone : s.told.count id = 1 := by
          rw [hcount id htold, hnone, if_neg List.not_mem_nil]
        exact Nat.le_of_eq hone
      · rw [List.count_eq_zero_of_not_mem htold]
        exact Nat.zero_le 1
  exact ⟨hcount, hiff, fun hnone => (List.nodup_append.1 (hiff.2 hnone)).1⟩

/-- A watcher that marks each diff before the table is asked again gets each diff once. -/
theorem count_of_run_prompt :
    let row : DiffId → StoredDiff := fun id =>
      ⟨id, Word.ofNat 0, Word.ofNat 0, 100, Word.ofNat 4, Word.ofNat 5⟩
    let events : List RelayEvent :=
      [.move (.poll [.ok (row 1)]), .move .pass, .move (.finish none), .take, .mark, .insert (row 2),
        .tick, .move (.poll [.error (.io "unreadable"), .ok (row 2)]), .move .pass, .move .pass]
    ∃ s, (start [row 1] 16).run events = some s ∧ s.told = [1, 2] ∧ s.told.Nodup := by
  intro row events
  obtain ⟨s, hs⟩ : ∃ s, (start [row 1] 16).run events = some s :=
    Option.isSome_iff_exists.1 (by decide +kernel)
  have hshown : ((start [row 1] 16).run events).map (fun s => (s.told, s.overtaken)) =
      some ([1, 2], []) := by decide +kernel
  rw [hs, Option.map_some, Option.some.injEq, Prod.mk.injEq] at hshown
  exact ⟨s, hs, hshown.1, (count_of_run hs).2.1.2 hshown.2⟩

/-- A watcher that takes its time gets the same diff twice. An empty poll finds the channel empty and
puts the cursor back, while the watcher still has the diff in hand. -/
theorem sent_twice :
    let row : StoredDiff := ⟨1, Word.ofNat 0, Word.ofNat 0, 100, Word.ofNat 4, Word.ofNat 5⟩
    let events : List RelayEvent :=
      [.move (.poll [.ok row]), .move .pass, .move (.finish none), .take,
        .tick, .move (.poll []), .move (.finish none),
        .tick, .move (.poll [.ok row]), .move .pass, .move (.finish none), .mark, .take]
    ∃ s, (start [row] 16).run events = some s ∧ s.poller.sent = [1, 1] ∧ ¬ s.poller.sent.Nodup ∧
      s.checked = [1] ∧ s.inHand = some row := by
  intro row events
  obtain ⟨s, hs⟩ : ∃ s, (start [row] 16).run events = some s :=
    Option.isSome_iff_exists.1 (by decide +kernel)
  have hshown : ((start [row] 16).run events).map
      (fun s => (s.poller.sent, s.checked, s.inHand)) = some ([1, 1], [1], some row) := by
    decide +kernel
  rw [hs, Option.map_some, Option.some.injEq, Prod.mk.injEq, Prod.mk.injEq] at hshown
  obtain ⟨hsent, hchecked, hheld⟩ := hshown
  exact ⟨s, hs, hsent, by rw [hsent]; decide, hchecked, hheld⟩

/-! ## What the poller does by itself -/

theorem answers_ofRows (s : Relay) (hrows : (s.unchecked.map StoredDiff.id).Nodup) :
    s.Answers ((DiffSource.ofRows s.unchecked).rows s.poller.cursor) := by
  let above := s.unchecked.filter fun d => s.poller.cursor < d.id
  let listed := above.mergeSort fun a b => a.id ≤ b.id
  have hreadable : ((DiffSource.ofRows s.unchecked).rows s.poller.cursor).filterMap
      Except.toOption = listed := by
    change (listed.map Except.ok).filterMap Except.toOption = listed
    rw [List.filterMap_map]
    exact List.filterMap_some
  have hperm : listed.Perm above := List.mergeSort_perm _ _
  rw [Answers, hreadable]
  constructor
  · have hsorted : listed.Pairwise fun a b => decide (a.id ≤ b.id) = true :=
      List.pairwise_mergeSort (fun a b c => by simpa using Int.le_trans)
        (fun a b => by simpa using Int.le_total a.id b.id) above
    have hdistinct : listed.Pairwise fun a b => a.id ≠ b.id := by
      have hnodup : (above.map StoredDiff.id).Nodup := (List.filter_sublist.map _).nodup hrows
      exact List.pairwise_map.1 ((hperm.map _).nodup_iff.2 hnodup)
    exact hsorted.imp₂ (fun a b hle hne => Int.lt_iff_le_and_ne.2 ⟨of_decide_eq_true hle, hne⟩)
      hdistinct
  · intro d hd
    obtain ⟨hmem, hlt⟩ := List.mem_filter.1 (hperm.mem_iff.1 hd)
    exact ⟨hmem, of_decide_eq_true hlt⟩

/-- **The rounds of the poller are runs of the relay.** When the poller goes on until it has to wait, its
queries being answered from the unchecked rows, it makes events that can happen one after the other. -/
theorem exists_run_settle (s : Relay) (hrows : (s.unchecked.map StoredDiff.id).Nodup) :
    ∃ moves : List PollerMove, ∃ t, s.run (moves.map .move) = some t ∧
      t.poller = s.poller.settle (DiffSource.ofRows s.unchecked) ∧ t.unchecked = s.unchecked ∧
      t.checked = s.checked ∧ t.inHand = s.inHand := by
  have hgoes := Poller.goes_settle (DiffSource.ofRows s.unchecked) s.poller
  generalize s.poller.settle (DiffSource.ofRows s.unchecked) = p at hgoes
  induction hgoes with
  | refl => exact ⟨[], s, rfl, rfl, rfl, rfl, rfl⟩
  | @tail _ p _ hmove ih =>
    obtain ⟨moves, t, hrun, rfl, hunchecked, hchecked, hheld⟩ := ih
    obtain ⟨m, hm, hrows'⟩ := hmove
    have hanswers : t.Answers m.rows := by
      cases m with
      | poll rows =>
        have hlisted := answers_ofRows t (by rwa [hunchecked])
        rw [hunchecked, ← hrows' rows rfl] at hlisted
        exact hlisted
      | stop | pass | hold | finish | report => exact ⟨List.Pairwise.nil, nofun⟩
    let overtaken := t.overtaken ++ (idsOf m.rows).filter fun id => t.heldId = some id
    have hstep : t.step (.move m) = some { t with poller := p, overtaken } := by
      rw [Relay.step, if_pos hanswers, hm, Option.map_some]
    refine ⟨moves ++ [m], { t with poller := p, overtaken }, ?_, rfl, hunchecked, hchecked, hheld⟩
    rw [List.map_append, run_append, hrun, Option.bind_some, List.map_singleton, run,
      List.foldlM_cons, hstep]
    rfl

end Relay

end SlotIndex
