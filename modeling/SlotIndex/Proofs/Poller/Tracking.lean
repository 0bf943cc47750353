import SlotIndex.Proofs.Poller.History
import SlotIndex.Proofs.Poller.Relay

/-!
# A poller and its history

The poller asks a table that honours its queries and sends what it lists, while the watcher takes items
or not, goes away, or asks for the end, in any order. At any time its history is one in which every note
may follow those before it, and tells where the poller stands.

* `Polling`, `Polling.step`, `Polling.run`: a poller with its history, and what can happen.
* `Standing`: where the poller stands, told by its history.
* `Tracked`: what holds at any time; one lemma for each kind of move, and from them `Tracked.move`,
  `Tracked.step`, **`Tracked.run`**.
-/

namespace SlotIndex

open PollHistory

/-- A poller, its history with the latest first, and what has been taken out of its channel. -/
structure Polling where
  poller : Poller
  history : List PollNote
  taken : List PollItem

/-- What can happen to a poller. -/
inductive PollingEvent where
  | tick
  | cancel
  /-- The receiver of the channel goes away. -/
  | close
  /-- The next item is taken. -/
  | receive
  | move (m : PollerMove)

namespace Poller

/-- How a query ends when the poller has come to the end of its rows. -/
def failureAt (s : Poller) (failure : Option StorageError) : Option StorageError :=
  match s.phase with
  | .forwarding _ _ _ ending => ending.getD failure
  | _ => failure

/-- Whether a row of the poll has found its receiver gone. -/
def hasLost (s : Poller) : Bool :=
  match s.phase with
  | .forwarding _ _ lost _ => lost
  | _ => false

/-- What is noted of a move that leads to `t`: the query and its answer, the end of the poll, and every
item that is new in the channel. -/
def notes (s t : Poller) : PollerMove → List PollNote
  | .poll rows => [.answered rows, .asked s.cursor]
  | .finish failure =>
    (if s.log.length < t.log.length then [.reset] else []) ++
      [.finished (s.failureAt failure) s.channel.isEmpty s.hasLost]
  | .stop | .pass | .hold _ | .report => (t.channel.drop s.channel.length).reverse.map .sent

end Poller

namespace Polling

/-- A poller that has not begun. -/
def start (capacity : Nat) (cancelled : Bool) : Polling := ⟨Poller.initial capacity cancelled, [], []⟩

/-- One event, if it can happen. The table honours the queries; whether they fail is left open. -/
def step (s : Polling) : PollingEvent → Option Polling
  | .tick => some { s with poller := { s.poller with due := true } }
  | .cancel => some { s with poller := s.poller.cancel }
  | .close => some { s with poller := s.poller.close }
  | .receive => s.poller.receive.map fun r => { s with poller := r.2, taken := s.taken ++ [r.1] }
  | .move m =>
    if Honours s.poller.cursor m.rows then
      (s.poller.move m).map fun t =>
        { s with poller := t, history := s.poller.notes t m ++ s.history }
    else none

def run (s : Polling) (events : List PollingEvent) : Option Polling := events.foldlM step s

end Polling

/-! ## Where the poller stands -/

/-- Where a poller stands, told by its history. -/
inductive Standing (p : Poller) : List PollNote → Prop where
  | between {history : List PollNote} (hphase : p.phase = .waiting ∨ p.phase = .ended)
      (hbetween : isBetween history = true) : Standing p history
  /-- What has been sent in the poll and what is left of its rows makes up the answer of the table. -/
  | forwarding {history : List PollNote} {rows : List (Except StorageError StoredDiff)} {n : Nat}
      {ending : Option (Option StorageError)} (hphase : p.phase = .forwarding rows n false ending)
      (hopen : isOpen history = true)
      (hlisted : readable (answer history) = inPoll history ++ readable rows)
      (hcount : n = (inPoll history).length) (habove : Honours p.cursor rows) : Standing p history
  | dropping {history : List PollNote} {rows : List (Except StorageError StoredDiff)} {n : Nat}
      {ending : Option (Option StorageError)} (hphase : p.phase = .forwarding rows n true ending)
      (hopen : isOpen history = true) (hfront : inPoll history <+: readable (answer history))
      (hclosed : p.closed = true) : Standing p history
  | reporting {e : StorageError} {empty lost : Bool} {earlier : List PollNote}
      (hphase : p.phase = .reporting e) : Standing p (.finished (some e) empty lost :: earlier)
  | abandoned {failure : Option StorageError} {empty lost : Bool} {earlier : List PollNote}
      (hphase : p.phase = .ended) (hclosed : p.closed = true)
      (hcause : lost = true ∨ failure ≠ none) : Standing p (.finished failure empty lost :: earlier)
  | reported {e : StorageError} {earlier : List PollNote} (hphase : p.phase = .ended) :
      Standing p (.sent (.error e) :: earlier)

namespace Standing

variable {p q : Poller} {history : List PollNote}

theorem of_waiting (h : Standing p history) (hwaiting : p.phase = .waiting) :
    isBetween history = true := by
  cases h with
  | between _ hbetween => exact hbetween
  | forwarding hphase | dropping hphase | reporting hphase | abandoned hphase | reported hphase =>
    cases hphase.symm.trans hwaiting

theorem of_reporting (h : Standing p history) {e : StorageError} (he : p.phase = .reporting e) :
    ∃ empty lost earlier, history = .finished (some e) empty lost :: earlier := by
  cases h with
  | reporting hphase =>
    cases hphase.symm.trans he
    exact ⟨_, _, _, rfl⟩
  | between hphase => rcases hphase with hphase | hphase <;> cases hphase.symm.trans he
  | forwarding hphase | dropping hphase | abandoned hphase | reported hphase =>
    cases hphase.symm.trans he

theorem of_forwarding (h : Standing p history) {rows : List (Except StorageError StoredDiff)} {n : Nat}
    {lost : Bool} {ending : Option (Option StorageError)}
    (hforwarding : p.phase = .forwarding rows n lost ending) : isOpen history = true ∧
      inPoll history <+: readable (answer history) ∧
      (lost = true → p.closed = true) ∧
      (lost = false → readable (answer history) = inPoll history ++ readable rows ∧
        n = (inPoll history).length ∧ Honours p.cursor rows) := by
  cases h with
  | forwarding hphase hopen hlisted hcount habove =>
    cases hphase.symm.trans hforwarding
    exact ⟨hopen, ⟨_, hlisted.symm⟩, fun hl => absurd hl Bool.false_ne_true,
      fun _ => ⟨hlisted, hcount, habove⟩⟩
  | dropping hphase hopen hfront hclosed =>
    cases hphase.symm.trans hforwarding
    exact ⟨hopen, hfront, fun _ => hclosed, fun hl => absurd hl.symm Bool.false_ne_true⟩
  | between hphase => rcases hphase with hphase | hphase <;> cases hphase.symm.trans hforwarding
  | reporting hphase | abandoned hphase | reported hphase => cases hphase.symm.trans hforwarding

theorem forwards {rows : List (Except StorageError StoredDiff)} {n : Nat} {lost : Bool}
    {ending : Option (Option StorageError)} (hphase : p.phase = .forwarding rows n lost ending)
    (hopen : isOpen history = true) (hfront : inPoll history <+: readable (answer history))
    (hclosed : lost = true → p.closed = true)
    (hlisted : lost = false → readable (answer history) = inPoll history ++ readable rows ∧
      n = (inPoll history).length ∧ Honours p.cursor rows) : Standing p history := by
  cases lost with
  | true => exact .dropping hphase hopen hfront (hclosed rfl)
  | false =>
    obtain ⟨hlisted, hcount, habove⟩ := hlisted rfl
    exact .forwarding hphase hopen hlisted hcount habove

theorem of_finished {failure : Option StorageError} {empty lost : Bool} {earlier : List PollNote}
    (h : Standing p (.finished failure empty lost :: earlier)) :
    isBetween (.finished failure empty lost :: earlier) = true ∨
      (∃ e, failure = some e ∧ p.phase = .reporting e) ∨
      p.closed = true ∧ (lost = true ∨ failure ≠ none) := by
  cases h with
  | between _ hbetween => exact .inl hbetween
  | forwarding _ hopen | dropping _ hopen => cases hopen
  | reporting hphase => exact .inr (.inl ⟨_, rfl, hphase⟩)
  | abandoned _ hclosed hcause => exact .inr (.inr ⟨hclosed, hcause⟩)

theorem of_reported {e : StorageError} {earlier : List PollNote}
    (h : Standing p (.sent (.error e) :: earlier)) : p.phase = .ended := by
  cases h with
  | between _ hbetween => cases hbetween
  | forwarding _ hopen | dropping _ hopen => cases hopen
  | reported hphase => exact hphase

/-- What stands still when neither the phase nor the cursor changes and the receiver does not come back. -/
theorem congr (h : Standing p history) (hphase : q.phase = p.phase) (hcursor : q.cursor = p.cursor)
    (hclosed : p.closed = true → q.closed = true) : Standing q history := by
  cases h with
  | between hp hbetween => exact .between (hp.imp hphase.trans hphase.trans) hbetween
  | forwarding hp hopen hlisted hcount habove =>
    exact .forwarding (hphase.trans hp) hopen hlisted hcount (hcursor ▸ habove)
  | dropping hp hopen hfront hc => exact .dropping (hphase.trans hp) hopen hfront (hclosed hc)
  | reporting hp => exact .reporting (hphase.trans hp)
  | abandoned hp hc hcause => exact .abandoned (hphase.trans hp) (hclosed hc) hcause
  | reported hp => exact .reported (hphase.trans hp)

end Standing

/-! ## What holds at any time -/

/-- What holds of a poller and its history at any time. -/
structure Tracked (s : Polling) : Prop where
  kept : Kept s.history
  logged : s.history.filterMap PollNote.event? = s.poller.log
  cursor : IsCursor (sinceReset s.history) s.poller.cursor
  heard : ∀ failure empty, .finished failure empty true ∈ s.history → s.poller.closed = true
  standing : Standing s.poller s.history
  /-- What has been sent has been taken or stands in the channel, unless the receiver has gone. -/
  taken : s.taken <+: items s.history
  waiting : s.poller.closed = false → s.taken ++ s.poller.channel = items s.history
  gone : s.poller.closed = true → s.poller.channel = []

namespace Tracked

variable {s t : Polling}

theorem start (capacity : Nat) (cancelled : Bool) : Tracked (Polling.start capacity cancelled) where
  kept := trivial
  logged := rfl
  cursor := .inl ⟨rfl, rfl⟩
  heard _ _ h := absurd h List.not_mem_nil
  standing := .between (.inl rfl) rfl
  taken := List.prefix_refl _
  waiting _ := rfl
  gone _ := rfl

/-- A move of which nothing is noted. -/
theorem silent (h : Tracked s) {p : Poller} (hlog : p.log = s.poller.log)
    (hcursor : p.cursor = s.poller.cursor) (hclosed : p.closed = s.poller.closed)
    (hchannel : p.channel = s.poller.channel) (hstanding : Standing p s.history) :
    Tracked { s with
      poller := p
      history := (p.channel.drop s.poller.channel.length).reverse.map .sent ++ s.history } := by
  rw [hchannel, List.drop_length]
  constructor
  case kept => exact h.kept
  case logged => exact h.logged.trans hlog.symm
  case cursor => exact hcursor ▸ h.cursor
  case heard => exact fun failure empty hmem => hclosed.trans (h.heard failure empty hmem)
  case standing => exact hstanding
  case taken => exact h.taken
  case waiting =>
    intro hopen
    change s.taken ++ p.channel = items s.history
    rw [hchannel]
    exact h.waiting (hclosed.symm.trans hopen)
  case gone => exact fun hgone => hchannel.trans (h.gone (hclosed.symm.trans hgone))

theorem poll (h : Tracked s) {rows : List (Except StorageError StoredDiff)} {p : Poller}
    (hrows : Honours s.poller.cursor rows) (hmove : s.poller.move (.poll rows) = some p) :
    Tracked { s with poller := p, history := s.poller.notes p (.poll rows) ++ s.history } := by
  simp only [Poller.move] at hmove
  split at hmove
  next hphase =>
    obtain ⟨-, hmove⟩ := Option.ite_none_right_eq_some.1 hmove
    cases hmove
    have hbetween := h.standing.of_waiting hphase
    constructor
    case kept => exact ⟨⟨_, _, rfl, hrows⟩, ⟨hbetween, h.cursor⟩, h.kept⟩
    case logged => exact congrArg (List.cons _) h.logged
    case cursor => exact h.cursor
    case heard =>
      intro failure empty hmem
      exact h.heard failure empty (by simpa [Poller.notes] using hmem)
    case standing => exact .forwarding rfl rfl rfl rfl hrows
    case taken => exact h.taken
    case waiting => exact h.waiting
    case gone => exact h.gone
  next => contradiction

/-- One item is sent. -/
theorem send (h : Tracked s) {p : Poller} {item : PollItem} {e : PollEvent}
    (hevent : (PollNote.sent item).event? = some e) (hlog : p.log = e :: s.poller.log)
    (hchannel : p.channel = s.poller.channel ++ [item]) (hclosed : p.closed = s.poller.closed)
    (hheard : s.poller.closed ≠ true)
    (hcursor : IsCursor (sinceReset (.sent item :: s.history)) p.cursor)
    (hfollows : Follows s.history (.sent item)) (hstanding : Standing p (.sent item :: s.history)) :
    Tracked { s with
      poller := p
      history := (p.channel.drop s.poller.channel.length).reverse.map .sent ++ s.history } := by
  rw [hchannel, List.drop_left]
  constructor
  case kept => exact ⟨hfollows, h.kept⟩
  case logged =>
    change (PollNote.sent item :: s.history).filterMap PollNote.event? = p.log
    rw [List.filterMap_cons_some hevent, h.logged, hlog]
  case cursor => exact hcursor
  case heard =>
    intro failure empty hmem
    exact hclosed.trans (h.heard failure empty (by simpa using hmem))
  case standing => exact hstanding
  case taken => exact h.taken.trans (List.prefix_append _ _)
  case waiting =>
    intro hopen
    change s.taken ++ p.channel = items s.history ++ [item]
    rw [hchannel, ← List.append_assoc, h.waiting (hclosed.symm.trans hopen)]
  case gone => exact fun hgone => absurd (hclosed.symm.trans hgone) hheard

/-- The next row is sent. -/
theorem forward (h : Tracked s) (hheard : s.poller.closed ≠ true) {d : StoredDiff}
    {rows : List (Except StorageError StoredDiff)} {n : Nat}
    {ending : Option (Option StorageError)} {p : Poller}
    (hphase : s.poller.phase = .forwarding (.ok d :: rows) n false ending)
    (hp : p = { s.poller with
      cursor := max s.poller.cursor d.id
      channel := s.poller.channel ++ [.ok d]
      log := .forwarded d.id :: s.poller.log
      phase := .forwarding rows (n + 1) false ending }) :
    Tracked { s with
      poller := p
      history := (p.channel.drop s.poller.channel.length).reverse.map .sent ++ s.history } := by
  obtain ⟨hopen, -, -, hlisted⟩ := h.standing.of_forwarding hphase
  obtain ⟨hlisted, hcount, habove⟩ := hlisted rfl
  have hanswer : readable (answer s.history) = inPoll s.history ++ [d] ++ readable rows :=
    hlisted.trans (List.append_cons _ _ _)
  rw [Honours, Poller.idsOf_ok, List.pairwise_cons, List.pairwise_cons] at habove
  obtain ⟨hlt, hrest⟩ := habove
  have hnext : s.poller.cursor < d.id := hlt d.id List.mem_cons_self
  have hmax : max s.poller.cursor d.id = d.id := Int.max_eq_right (Int.le_of_lt hnext)
  have hlargest : ∀ j ∈ sinceReset s.history, j < d.id := by
    intro j hj
    rcases h.cursor with ⟨hnone, -⟩ | ⟨-, hle⟩
    · rw [hnone] at hj
      exact absurd hj List.not_mem_nil
    · exact Int.lt_of_le_of_lt (hle j hj) hnext
  rw [hmax] at hp
  subst hp
  refine h.send rfl rfl rfl rfl hheard ?cursor ⟨hopen, ⟨_, hanswer.symm⟩, hlargest⟩ ?standing
  case cursor =>
    refine .inr ⟨List.mem_append_right _ (List.mem_singleton_self _), fun j hj => ?_⟩
    rcases List.mem_append.1 hj with hj | hj
    · exact Int.le_of_lt (hlargest j hj)
    · exact Int.le_of_eq (List.mem_singleton.1 hj)
  case standing =>
    refine .forwarding rfl rfl hanswer ?_ (List.pairwise_cons.2 hrest)
    change n + 1 = (inPoll s.history ++ [d]).length
    rw [hcount, List.length_append, List.length_singleton]

theorem pass (h : Tracked s) {p : Poller} (hmove : s.poller.move .pass = some p) :
    Tracked { s with poller := p, history := s.poller.notes p .pass ++ s.history } := by
  simp only [Poller.move] at hmove
  split at hmove
  next row rows n lost ending hphase =>
    obtain ⟨hopen, hfront, hclosed, hlisted⟩ := h.standing.of_forwarding hphase
    cases row with
    | error e =>
      cases hmove
      exact h.silent rfl rfl rfl rfl (.forwards rfl hopen hfront hclosed hlisted)
    | ok d =>
      rw [Poller.passRow] at hmove
      cases lost with
      | true =>
        cases hmove
        exact h.silent rfl rfl rfl rfl (.dropping rfl hopen hfront (hclosed rfl))
      | false =>
        rw [if_neg Bool.false_ne_true] at hmove
        split at hmove
        next hgone =>
          cases hmove
          exact h.silent rfl rfl rfl rfl (.dropping rfl hopen hfront hgone)
        next hheard =>
          obtain ⟨-, hmove⟩ := Option.ite_none_right_eq_some.1 hmove
          exact h.forward hheard hphase (Option.some.inj hmove).symm
  next => contradiction

/-- A poll comes to its end, and the cursor stays where it is. -/
theorem ends (h : Tracked s) {p : Poller} (hlog : p.log = s.poller.log)
    (hcursor : p.cursor = s.poller.cursor) (hclosed : p.closed = s.poller.closed)
    (hchannel : p.channel = s.poller.channel) {failure : Option StorageError} {empty lost : Bool}
    (hfollows : Follows s.history (.finished failure empty lost))
    (hlost : lost = true → s.poller.closed = true)
    (hstanding : Standing p (.finished failure empty lost :: s.history)) :
    Tracked { s with
      poller := p
      history := (if s.poller.log.length < p.log.length then [.reset] else []) ++
        [.finished failure empty lost] ++ s.history } := by
  rw [if_neg (by rw [hlog]; exact Nat.lt_irrefl _)]
  constructor
  case kept => exact ⟨hfollows, h.kept⟩
  case logged => exact h.logged.trans hlog.symm
  case cursor => exact hcursor ▸ h.cursor
  case heard =>
    intro failure' empty' hmem
    rcases List.mem_cons.1 hmem with heq | hmem
    · cases heq
      exact hclosed.trans (hlost rfl)
    · exact hclosed.trans (h.heard failure' empty' hmem)
  case standing => exact hstanding
  case taken => exact h.taken
  case waiting =>
    intro hopen
    change s.taken ++ p.channel = items s.history
    rw [hchannel]
    exact h.waiting (hclosed.symm.trans hopen)
  case gone => exact fun hgone => hchannel.trans (h.gone (hclosed.symm.trans hgone))

/-- A poll that has sent nothing comes to its end and finds the channel empty. -/
theorem reset (h : Tracked s) {p : Poller}
    (hp : p = { s.poller with
      cursor := 0
      phase := .waiting
      log := .reset :: s.poller.log })
    (hfollows : Follows s.history (.finished none true false)) (hnone : inPoll s.history = []) :
    Tracked { s with
      poller := p
      history := (if s.poller.log.length < p.log.length then [.reset] else []) ++
        [.finished none true false] ++ s.history } := by
  have hlonger : s.poller.log.length < p.log.length := by
    rw [hp]
    exact Nat.lt_succ_self _
  rw [if_pos hlonger]
  subst hp
  constructor
  case kept => exact ⟨⟨hnone, _, rfl⟩, hfollows, h.kept⟩
  case logged => exact congrArg (List.cons _) h.logged
  case cursor => exact .inl ⟨rfl, rfl⟩
  case heard => exact fun failure empty hmem => h.heard failure empty (by simpa using hmem)
  case standing => exact .between (.inl rfl) rfl
  case taken => exact h.taken
  case waiting => exact h.waiting
  case gone => exact h.gone

theorem finish (h : Tracked s) {failure : Option StorageError} {p : Poller}
    (hmove : s.poller.move (.finish failure) = some p) :
    Tracked { s with poller := p, history := s.poller.notes p (.finish failure) ++ s.history } := by
  simp only [Poller.move] at hmove
  split at hmove
  next n lost ending hphase =>
    obtain ⟨hopen, hfront, hclosed, hlisted⟩ := h.standing.of_forwarding hphase
    have hfailure : s.poller.failureAt failure = ending.getD failure := by
      simp only [Poller.failureAt, hphase]
    have hlost : s.poller.hasLost = lost := by simp only [Poller.hasLost, hphase]
    have hall : lost = false → inPoll s.history = readable (answer s.history) := fun hl =>
      (List.append_nil _).symm.trans (hlisted hl).1.symm
    have hcount : lost = false → n = (inPoll s.history).length := fun hl => (hlisted hl).2.1
    rw [Poller.notes, hfailure, hlost]
    generalize ending.getD failure = ended at hmove ⊢
    cases ended with
    | some e =>
      cases hmove
      refine h.ends ?_ ?_ ?_ ?_ ⟨hopen, hfront, hall⟩ hclosed (.reporting ?_) <;> rfl
    | none =>
      cases lost with
      | true =>
        cases hmove
        refine h.ends ?_ ?_ ?_ ?_ ⟨hopen, hfront, hall⟩ hclosed
          (.abandoned ?_ (hclosed rfl) (.inl rfl)) <;> rfl
      | false =>
        rw [Poller.finishPoll, if_neg Bool.false_ne_true] at hmove
        split at hmove
        next hreset =>
          obtain ⟨hzero, hempty⟩ := hreset
          have hnone : inPoll s.history = [] :=
            List.eq_nil_of_length_eq_zero ((hcount rfl).symm.trans hzero)
          rw [hempty]
          exact h.reset (Option.some.inj hmove).symm ⟨hopen, hfront, hall⟩ hnone
        next hreset =>
          have hbetween : isBetween
              (.finished none s.poller.channel.isEmpty false :: s.history) = true := by
            rw [isBetween, Bool.not_eq_true', Bool.and_eq_false_iff, List.isEmpty_eq_false_iff,
              List.isEmpty_eq_false_iff]
            by_cases hempty : s.poller.channel = []
            · refine .inr fun hnone => hreset ⟨?_, hempty⟩
              rw [hcount rfl, hnone]
              rfl
            · exact .inl hempty
          cases hmove
          refine h.ends ?_ ?_ ?_ ?_ ⟨hopen, hfront, hall⟩ hclosed (.between (.inl ?_) hbetween) <;> rfl
  next => contradiction

theorem report (h : Tracked s) {p : Poller} (hmove : s.poller.move .report = some p) :
    Tracked { s with poller := p, history := s.poller.notes p .report ++ s.history } := by
  simp only [Poller.move] at hmove
  split at hmove
  next e hphase =>
    obtain ⟨empty, lost, earlier, hhistory⟩ := h.standing.of_reporting hphase
    obtain ⟨hroom, hmove⟩ := Option.ite_none_right_eq_some.1 hmove
    rw [Poller.report] at hmove
    split at hmove
    next hclosed =>
      cases hmove
      refine h.silent rfl rfl rfl rfl ?_
      rw [hhistory]
      exact .abandoned rfl hclosed (.inr (Option.some_ne_none e))
    next hclosed =>
      have hroom : s.poller.hasRoom = true :=
        (Bool.or_eq_true_iff.1 hroom).resolve_left hclosed
      rw [if_pos hroom] at hmove
      cases hmove
      exact h.send rfl rfl rfl rfl hclosed h.cursor ⟨empty, lost, earlier, hhistory⟩ (.reported rfl)
  next => contradiction

/-- **One move** goes on the history as it should. -/
theorem move (h : Tracked s) {m : PollerMove} (hrows : Honours s.poller.cursor m.rows) {p : Poller}
    (hmove : s.poller.move m = some p) :
    Tracked { s with poller := p, history := s.poller.notes p m ++ s.history } := by
  cases m with
  | poll rows => exact h.poll hrows hmove
  | pass => exact h.pass hmove
  | finish failure => exact h.finish hmove
  | report => exact h.report hmove
  | stop =>
    simp only [Poller.move] at hmove
    split at hmove
    next hphase =>
      obtain ⟨-, hmove⟩ := Option.ite_none_right_eq_some.1 hmove
      cases hmove
      exact h.silent rfl rfl rfl rfl (.between (.inr rfl) (h.standing.of_waiting hphase))
    next => contradiction
  | hold ending =>
    simp only [Poller.move] at hmove
    split at hmove
    next rows n lost _ hphase =>
      obtain ⟨hopen, hfront, hclosed, hlisted⟩ := h.standing.of_forwarding hphase
      cases hmove
      exact h.silent rfl rfl rfl rfl (.forwards rfl hopen hfront hclosed hlisted)
    next => contradiction

/-- **One event**, whatever it is. -/
theorem step (h : Tracked s) {e : PollingEvent} (hstep : s.step e = some t) : Tracked t := by
  cases e with
  | tick | cancel =>
    cases hstep
    exact { h with standing := h.standing.congr rfl rfl id }
  | close =>
    cases hstep
    exact { h with
      heard := fun _ _ _ => rfl
      standing := h.standing.congr rfl rfl fun _ => rfl
      waiting := fun hopen => absurd hopen.symm Bool.false_ne_true
      gone := fun _ => rfl }
  | receive =>
    obtain ⟨⟨item, p⟩, hreceive, rfl⟩ := Option.map_eq_some_iff.1 hstep
    rw [Poller.receive] at hreceive
    split at hreceive
    next => contradiction
    next rest hchannel =>
      cases hreceive
      have hheard : s.poller.closed = false := by
        cases hclosed : s.poller.closed with
        | false => rfl
        | true => exact absurd (hchannel.symm.trans (h.gone hclosed)) (List.cons_ne_nil _ _)
      have hitems : s.taken ++ [item] ++ rest = items s.history := by
        rw [← List.append_cons, ← hchannel]
        exact h.waiting hheard
      exact { h with
        standing := h.standing.congr rfl rfl id
        taken := ⟨rest, hitems⟩
        waiting := fun _ => hitems
        gone := fun hclosed => absurd (hheard.symm.trans hclosed) Bool.false_ne_true }
  | move m =>
    rw [Polling.step, Option.ite_none_right_eq_some] at hstep
    obtain ⟨hrows, hstep⟩ := hstep
    obtain ⟨p, hmove, rfl⟩ := Option.map_eq_some_iff.1 hstep
    exact h.move hrows hmove

/-- **Every run**. -/
theorem run (h : Tracked s) {events : List PollingEvent} (hrun : s.run events = some t) :
    Tracked t := by
  induction events generalizing s with
  | nil =>
    cases hrun
    exact h
  | cons e events ih =>
    obtain ⟨u, hstep, hrest⟩ := Option.bind_eq_some_iff.1 hrun
    exact ih (h.step hstep) hrest

end Tracked

end SlotIndex
