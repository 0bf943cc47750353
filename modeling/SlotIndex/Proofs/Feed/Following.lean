import Mathlib.Data.List.Forall2
import Mathlib.Data.List.Induction
import Mathlib.Data.List.TakeWhile
import SlotIndex.Feed.Tail
import SlotIndex.Proofs.Text.Utf8

/-!
# A file is followed line by line

A file may be written in any pieces, and it may be read at any moment in between, in the middle of a line
or of a character too. The messages are those of the finished lines of all that has been written.

* `Lines`: bytes as finished lines and what stands behind them.
* `LineYields`: what a finished line comes to.
* `FileEvent`, `Following`: a file that is written to and followed, in any interleaving.
* `Following.Sound`: the lines that have been dealt with, and the bytes that have not.
* `bursts_flatten`: the same when everything that has been written is read each time.
* **`Following.sent_of_written`**: what is sent depends on the bytes alone.
-/

namespace SlotIndex

/-! ## Lines -/

/-- A finished line ends with its only newline. -/
def IsLine (line : List UInt8) : Prop := ∃ body, newline ∉ body ∧ line = body ++ [newline]

/-- Bytes as their finished lines, each with its newline, and the bytes behind the last newline. -/
structure Lines (bytes : List UInt8) (lines : List (List UInt8)) (rest : List UInt8) : Prop where
  bytes_eq : bytes = lines.flatten ++ rest
  finished : ∀ line ∈ lines, IsLine line
  rest : newline ∉ rest

theorem exists_lines (bytes : List UInt8) : ∃ lines rest, Lines bytes lines rest := by
  -- A byte behind the others ends the line that has been open, or belongs to it.
  induction bytes using List.reverseRecOn with
  | nil => exact ⟨[], [], rfl, nofun, List.not_mem_nil⟩
  | append_singleton bytes b ih =>
    obtain ⟨lines, rest, rfl, hfinished, hrest⟩ := ih
    by_cases hb : b = newline
    · refine ⟨lines ++ [rest ++ [b]], [], by simp, ?_, List.not_mem_nil⟩
      intro line hline
      rcases List.mem_append.1 hline with hline | hline
      · exact hfinished line hline
      · rw [List.mem_singleton] at hline
        exact ⟨rest, hrest, by rw [hline, hb]⟩
    · refine ⟨lines, rest ++ [b], by simp, hfinished, ?_⟩
      rw [List.mem_append, List.mem_singleton, not_or]
      exact ⟨hrest, Ne.symm hb⟩

theorem Lines.append {bytes more rest : List UInt8} {lines done : List (List UInt8)}
    (h : Lines more lines rest) (hbytes : bytes = done.flatten ++ more)
    (hdone : ∀ line ∈ done, IsLine line) :
    Lines bytes (done ++ lines) rest where
  bytes_eq := by rw [hbytes, h.bytes_eq, List.flatten_append, List.append_assoc]
  finished line hline := (List.mem_append.1 hline).elim (hdone line) (h.finished line)
  rest := h.rest

/-- Bytes have their lines in one way. -/
theorem Lines.unique {bytes rest rest' : List UInt8} {lines lines' : List (List UInt8)}
    (h : Lines bytes lines rest) (h' : Lines bytes lines' rest') : lines = lines' ∧ rest = rest' := by
  -- Both have the line that `takeLine` reads as their first one.
  induction lines generalizing bytes lines' with
  | nil =>
    have hbytes : newline ∉ bytes := by
      rw [h.bytes_eq]
      exact h.rest
    cases lines' with
    | nil => exact ⟨rfl, h.bytes_eq.symm.trans h'.bytes_eq⟩
    | cons line' lines' =>
      obtain ⟨body, -, hline⟩ := h'.finished line' List.mem_cons_self
      refine absurd ?_ hbytes
      rw [h'.bytes_eq, hline]
      simp
  | cons line lines ih =>
    obtain ⟨body, hbody, hline⟩ := h.finished line List.mem_cons_self
    have hread : takeLine bytes = (line, lines.flatten ++ rest) := by
      rw [hline, ← takeLine_of_line hbody, h.bytes_eq, hline]
      simp
    cases lines' with
    | nil =>
      have hbytes : bytes = rest' := h'.bytes_eq
      rw [hbytes, takeLine_of_not_mem h'.rest] at hread
      refine absurd ?_ h'.rest
      have hrest : rest' = line := congrArg Prod.fst hread
      rw [hrest, hline]
      simp
    | cons line' lines' =>
      obtain ⟨body', hbody', hline'⟩ := h'.finished line' List.mem_cons_self
      have hread' : takeLine bytes = (line', lines'.flatten ++ rest') := by
        rw [hline', ← takeLine_of_line hbody', h'.bytes_eq, hline']
        simp
      rw [hread, Prod.mk.injEq] at hread'
      obtain ⟨rfl, hmore⟩ := hread'
      have htail : Lines (lines.flatten ++ rest) lines rest :=
        ⟨rfl, fun l hl => h.finished l (List.mem_cons_of_mem _ hl), h.rest⟩
      have htail' : Lines (lines.flatten ++ rest) lines' rest' :=
        ⟨hmore, fun l hl => h'.finished l (List.mem_cons_of_mem _ hl), h'.rest⟩
      obtain ⟨rfl, rfl⟩ := ih htail htail'
      exact ⟨rfl, rfl⟩

/-! ## The message of a line -/

/-- What a finished line comes to: an error if no text is written as the line, nothing if its text has
line ends only, and else the diff or the error of what stands in front of the line ends. -/
inductive LineYields : List UInt8 → List SourceMessage → Prop where
  | notText {line : List UInt8} {fault : Utf8.Fault} (htext : ∀ text, Utf8.encode text ≠ line)
    (hfault : Utf8.decode line = .error fault) :
    LineYields line [.error (.invalidRowField "line" fault.message)]
  | blank {ends : List Char} (hends : ∀ c ∈ ends, c = '\n' ∨ c = '\r') :
    LineYields (Utf8.encode ends) []
  | row {text ends : List Char} {last : Char} (hlast : ¬ (last = '\n' ∨ last = '\r'))
    (hends : ∀ c ∈ ends, c = '\n' ∨ c = '\r') :
    LineYields (Utf8.encode (text ++ last :: ends)) [Diff.ofRow (Diff.splitRow (text ++ [last]))]

theorem exists_trimLineEnd (text : List Char) :
    ∃ ends, (∀ c ∈ ends, c = '\n' ∨ c = '\r') ∧ text = trimLineEnd text ++ ends := by
  refine ⟨(text.reverse.takeWhile fun c => c = '\n' || c = '\r').reverse, ?_, ?_⟩
  · intro c hc
    have hmem := List.mem_takeWhile_imp (List.mem_reverse.1 hc)
    simpa using hmem
  · rw [trimLineEnd, ← List.reverse_append, List.takeWhile_append_dropWhile, List.reverse_reverse]

theorem not_lineEnd_of_trimLineEnd {text front : List Char} {last : Char}
    (h : trimLineEnd text = front ++ [last]) : ¬ (last = '\n' ∨ last = '\r') := by
  have hrev := congrArg List.reverse h
  rw [trimLineEnd, List.reverse_reverse, List.reverse_append, List.reverse_singleton] at hrev
  have hhead := List.head?_dropWhile_not (fun c : Char => c = '\n' || c = '\r') text.reverse
  rw [hrev] at hhead
  simpa using hhead

theorem lineYields_lineMessage? (line : List UInt8) :
    LineYields line (lineMessage? line).toList := by
  rw [lineMessage?]
  cases hdecode : Utf8.decode line with
  | error fault =>
    refine .notText (fun text htext => ?_) hdecode
    rw [Utf8.decode_eq_ok_iff.2 htext] at hdecode
    cases hdecode
  | ok text =>
    obtain ⟨ends, hends, htext⟩ := exists_trimLineEnd text
    have hline : Utf8.encode (trimLineEnd text ++ ends) = line := by
      rw [← htext]
      exact Utf8.decode_eq_ok_iff.1 hdecode
    obtain hnil | ⟨front, last, hfront⟩ := List.eq_nil_or_concat (trimLineEnd text)
    · rw [hnil, List.nil_append] at hline
      simp only [hnil, if_true, Option.toList_none]
      rw [← hline]
      exact .blank hends
    · rw [List.concat_eq_append] at hfront
      have hrow : LineYields (Utf8.encode (front ++ last :: ends))
          [Diff.ofRow (Diff.splitRow (front ++ [last]))] :=
        .row (not_lineEnd_of_trimLineEnd hfront) hends
      rw [List.append_cons, ← hfront, hline] at hrow
      simp only [hfront]
      rw [if_neg (by simp), Option.toList_some, ← hfront]
      exact hrow

/-! ## One line after the other -/

/-- The first line of bytes of which some wait, with no newline among them, ends in the others. -/
theorem Lines.exists_body {pending unread line rest : List UInt8} {lines : List (List UInt8)}
    (h : Lines (pending ++ unread) (line :: lines) rest) (hp : newline ∉ pending) :
    ∃ body, newline ∉ body ∧ line = pending ++ (body ++ [newline]) ∧
      unread = body ++ newline :: (lines.flatten ++ rest) := by
  obtain ⟨whole, hwhole, rfl⟩ := h.finished line List.mem_cons_self
  have hbytes : pending ++ unread = whole ++ newline :: (lines.flatten ++ rest) := by
    rw [h.bytes_eq]
    simp
  -- The newline cannot stand among the bytes that wait, so the line ends behind them.
  rcases List.append_eq_append_iff.1 hbytes with ⟨body, rfl, hunread⟩ | ⟨more, rfl, hmore⟩
  · refine ⟨body, fun hmem => hwhole (List.mem_append_right _ hmem), ?_, hunread⟩
    rw [List.append_assoc]
  · cases more with
    | nil => exact ⟨[], List.not_mem_nil, by simp, hmore.symm⟩
    | cons b more =>
      have hb : newline = b := (List.cons.inj hmore).1
      rw [hb] at hp
      exact absurd (List.mem_append_right _ List.mem_cons_self) hp

theorem Lines.tail {bytes line rest : List UInt8} {lines : List (List UInt8)}
    (h : Lines bytes (line :: lines) rest) : Lines (lines.flatten ++ rest) lines rest where
  bytes_eq := rfl
  finished l hl := h.finished l (List.mem_cons_of_mem _ hl)
  rest := h.rest

namespace Tail

variable {t : Tail} (hp : newline ∉ t.pending) {line rest : List UInt8} {lines : List (List UInt8)}

include hp

/-- A turn deals with the first line that is finished, if its message can be delivered. -/
theorem turn_of_lines (h : Lines (t.pending ++ t.unread) (line :: lines) rest)
    (accepts : SourceMessage → Bool) :
    t.turn accepts =
      if (lineMessage? line).all accepts then .goesOn ⟨[], lines.flatten ++ rest⟩ (lineMessage? line)
      else .ends := by
  obtain ⟨body, hbody, hline, hunread⟩ := h.exists_body hp
  have ht : t = ⟨t.pending, body ++ newline :: (lines.flatten ++ rest)⟩ := by rw [← hunread]
  rw [ht, turn_of_line _ hbody, ← hline]

theorem turn_of_no_lines (h : Lines (t.pending ++ t.unread) [] rest)
    (accepts : SourceMessage → Bool) : t.turn accepts = .waits ⟨rest, []⟩ := by
  have hbytes : t.pending ++ t.unread = rest := h.bytes_eq
  have hu : newline ∉ t.unread := fun hmem => h.rest (hbytes ▸ List.mem_append_right _ hmem)
  rw [turn_of_not_mem hp hu, hbytes]

/-- A turn deals with the first line that is finished, when every message can be delivered. -/
theorem turn_of_lines_of_all (h : Lines (t.pending ++ t.unread) (line :: lines) rest) :
    t.turn (fun _ => true) = .goesOn ⟨[], lines.flatten ++ rest⟩ (lineMessage? line) := by
  rw [turn_of_lines hp h]
  exact if_pos (by cases lineMessage? line <;> rfl)

/-- Reading everything that has been written deals with all lines that are finished. -/
theorem drain_eq (h : Lines (t.pending ++ t.unread) lines rest) :
    t.drain = (lines.filterMap lineMessage?, ⟨rest, []⟩) := by
  induction lines generalizing t with
  | nil => exact drain_of_waits (turn_of_no_lines hp h _)
  | cons line lines ih =>
    rw [drain_of_goesOn (turn_of_lines_of_all hp h), ih List.not_mem_nil h.tail]
    cases hmessage : lineMessage? line with
    | none => rw [List.filterMap_cons_none hmessage, Option.toList_none, List.nil_append]
    | some m => rw [List.filterMap_cons_some hmessage, Option.toList_some, List.singleton_append]

end Tail

/-! ## Any interleaving -/

/-- What happens to a file and to the loop that follows it. -/
inductive FileEvent where
  /-- Bytes are written to the end of the file. -/
  | write (bytes : List UInt8)
  /-- The loop reads on inside a line, at most so many bytes, before anything else happens. -/
  | read (size : Nat)
  /-- The loop comes to the end of a turn. -/
  | turn

/-- The bytes that an event writes. -/
def FileEvent.written : FileEvent → List UInt8
  | .write bytes => bytes
  | .read _ | .turn => []

/-- A file that is followed, and what has been sent. -/
structure Following where
  tail : Tail
  sent : List SourceMessage

namespace Following

def start : Following := ⟨Tail.empty, []⟩

/-- One event. Every message can be delivered. -/
def step (s : Following) : FileEvent → Following
  | .write bytes => { s with tail := s.tail.write bytes }
  | .read size =>
    let part := (s.tail.unread.take size).takeWhile (· ≠ newline)
    { s with tail := ⟨s.tail.pending ++ part, s.tail.unread.drop part.length⟩ }
  | .turn =>
    match s.tail.turn fun _ => true with
    | .waits t => { s with tail := t }
    | .goesOn t message => ⟨t, s.sent ++ message.toList⟩
    | .ends => s

def run (s : Following) (events : List FileEvent) : Following := events.foldl step s

/-- The lines that have been dealt with. What has been written is these lines, the bytes that wait,
which have no newline among them, and the bytes that have not been read. -/
structure Sound (s : Following) (written : List UInt8) (done : List (List UInt8)) : Prop where
  written_eq : written = done.flatten ++ (s.tail.pending ++ s.tail.unread)
  finished : ∀ line ∈ done, IsLine line
  pending : newline ∉ s.tail.pending
  sent : s.sent = done.filterMap lineMessage?

variable {s : Following} {written rest : List UInt8} {done lines : List (List UInt8)}

theorem sound_start : start.Sound [] [] where
  written_eq := rfl
  finished := nofun
  pending := List.not_mem_nil
  sent := rfl

/-- The lines that have been dealt with are the first ones of all lines that are finished. -/
theorem Sound.exists_more (h : s.Sound written done) (hlines : Lines written lines rest) :
    ∃ more, lines = done ++ more ∧ Lines (s.tail.pending ++ s.tail.unread) more rest := by
  obtain ⟨more, rest', hmore⟩ := exists_lines (s.tail.pending ++ s.tail.unread)
  obtain ⟨rfl, rfl⟩ := (hmore.append h.written_eq h.finished).unique hlines
  exact ⟨more, rfl, hmore⟩

theorem Sound.write (h : s.Sound written done) (bytes : List UInt8) :
    (s.step (.write bytes)).Sound (written ++ bytes) done where
  written_eq := by
    rw [h.written_eq]
    simp [step, Tail.write]
  finished := h.finished
  pending := h.pending
  sent := h.sent

/-- Reading on inside a line moves bytes to those that wait, and no newline among them. -/
theorem pending_append_unread_read (s : Following) (size : Nat) :
    (s.step (.read size)).tail.pending ++ (s.step (.read size)).tail.unread =
      s.tail.pending ++ s.tail.unread := by
  let part := (s.tail.unread.take size).takeWhile (· ≠ newline)
  have hprefix : part <+: s.tail.unread :=
    (List.takeWhile_prefix _).trans (List.take_prefix size s.tail.unread)
  change s.tail.pending ++ part ++ s.tail.unread.drop part.length = s.tail.pending ++ s.tail.unread
  rw [List.append_assoc, List.prefix_iff_eq_append.1 hprefix]

theorem not_mem_pending_read (hp : newline ∉ s.tail.pending) (size : Nat) :
    newline ∉ (s.step (.read size)).tail.pending := by
  have hpart : newline ∉ (s.tail.unread.take size).takeWhile (· ≠ newline) :=
    fun hmem => by simpa using List.mem_takeWhile_imp hmem
  exact fun hmem => (List.mem_append.1 hmem).elim hp hpart

theorem Sound.read (h : s.Sound written done) (size : Nat) :
    (s.step (.read size)).Sound written done where
  written_eq := by
    rw [pending_append_unread_read]
    exact h.written_eq
  finished := h.finished
  pending := not_mem_pending_read h.pending size
  sent := h.sent

/-- A turn deals with one more line if there is one, and with everything that is left if not. -/
theorem Sound.turn (h : s.Sound written done) (hlines : Lines written lines rest) :
    ∃ done', (s.step .turn).Sound written done' ∧
      (done' = lines ∨ done'.length = done.length + 1) := by
  obtain ⟨more, rfl, hmore⟩ := h.exists_more hlines
  -- What has not been dealt with has a finished line or it has none.
  cases more with
  | nil =>
    have hstep : s.step .turn = ⟨⟨rest, []⟩, s.sent⟩ := by
      rw [step, Tail.turn_of_no_lines h.pending hmore]
    rw [hstep, List.append_nil]
    refine ⟨done, ⟨?_, h.finished, hlines.rest, h.sent⟩, .inl rfl⟩
    rw [hlines.bytes_eq, List.append_nil, List.append_nil]
  | cons line more =>
    have hstep : s.step .turn =
        ⟨⟨[], more.flatten ++ rest⟩, s.sent ++ (lineMessage? line).toList⟩ := by
      rw [step, Tail.turn_of_lines_of_all h.pending hmore]
    rw [hstep]
    refine ⟨done ++ [line], ⟨?_, ?_, List.not_mem_nil, ?_⟩, .inr List.length_append⟩
    · rw [hlines.bytes_eq]
      simp
    · intro l hl
      exact hlines.finished l (by simpa using Or.imp_right Or.inl (List.mem_append.1 hl))
    · rw [h.sent, List.filterMap_append]
      cases hmessage : lineMessage? line <;> simp [hmessage]

theorem Sound.step (h : s.Sound written done) (e : FileEvent) :
    ∃ done', (s.step e).Sound (written ++ e.written) done' := by
  cases e with
  | write bytes => exact ⟨done, h.write bytes⟩
  | read size =>
    rw [FileEvent.written, List.append_nil]
    exact ⟨done, h.read size⟩
  | turn =>
    rw [FileEvent.written, List.append_nil]
    obtain ⟨lines, rest, hlines⟩ := exists_lines written
    obtain ⟨done', hdone', -⟩ := h.turn hlines
    exact ⟨done', hdone'⟩

theorem Sound.run (h : s.Sound written done) (events : List FileEvent) :
    ∃ done', (s.run events).Sound (written ++ events.flatMap FileEvent.written) done' := by
  induction events generalizing s written done with
  | nil => exact ⟨done, by simpa [Following.run] using h⟩
  | cons e events ih =>
    obtain ⟨done', hstep⟩ := h.step e
    rw [List.flatMap_cons, ← List.append_assoc]
    exact ih hstep

/-- As many turns as there are lines deal with all of them. -/
theorem Sound.turns (h : s.Sound written done) (hlines : Lines written lines rest) {n : Nat}
    (hn : lines.length ≤ done.length + n) :
    (s.run (List.replicate n .turn)).Sound written lines := by
  induction n generalizing s done with
  | zero =>
    obtain ⟨more, rfl, -⟩ := h.exists_more hlines
    have hmore : more = [] := by
      rw [List.length_append] at hn
      exact List.eq_nil_of_length_eq_zero (by omega)
    rw [hmore, List.append_nil]
    exact h
  | succ n ih =>
    obtain ⟨done', hdone', hnext⟩ := h.turn hlines
    refine ih hdone' ?_
    rcases hnext with rfl | hlength <;> omega

/-- With everything read, all lines that are finished have been dealt with, and the others wait. -/
theorem Sound.of_unread (h : s.Sound written done) (hlines : Lines written lines rest)
    (hunread : s.tail.unread = []) : s.sent = lines.filterMap lineMessage? ∧ s.tail.pending = rest := by
  have hdone : Lines written done s.tail.pending := by
    refine ⟨?_, h.finished, h.pending⟩
    rw [h.written_eq, hunread, List.append_nil]
  obtain ⟨rfl, rfl⟩ := hdone.unique hlines
  exact ⟨h.sent, rfl⟩

theorem Sound.append (h : s.Sound written done) (bytes : List UInt8) :
    let r := s.tail.append bytes
    r.2.unread = [] ∧ ∃ done', Sound ⟨r.2, s.sent ++ r.1⟩ (written ++ bytes) done' := by
  obtain ⟨lines, rest, hlines⟩ := exists_lines (written ++ bytes)
  have hwritten := h.write bytes
  obtain ⟨more, rfl, hmore⟩ := hwritten.exists_more hlines
  have hdrain : s.tail.append bytes = (more.filterMap lineMessage?, ⟨rest, []⟩) :=
    Tail.drain_eq hwritten.pending hmore
  rw [hdrain]
  refine ⟨rfl, done ++ more, ⟨?_, hlines.finished, hmore.rest, ?_⟩⟩
  · rw [hlines.bytes_eq, List.append_nil]
  · rw [h.sent, List.filterMap_append]

/-- What is sent while a file is written piece by piece, and read to its end after each piece. -/
theorem Sound.bursts {chunks : List (List UInt8)} (h : s.Sound written done)
    (hunread : s.tail.unread = []) (hlines : Lines (written ++ chunks.flatten) lines rest) :
    s.sent ++ (s.tail.bursts chunks).flatten = lines.filterMap lineMessage? := by
  induction chunks generalizing s written done with
  | nil =>
    rw [List.flatten_nil, List.append_nil] at hlines
    rw [Tail.bursts, List.flatten_nil, List.append_nil]
    exact (h.of_unread hlines hunread).1
  | cons bytes chunks ih =>
    obtain ⟨hunread', done', hdone'⟩ := h.append bytes
    rw [List.flatten_cons, ← List.append_assoc] at hlines
    rw [Tail.bursts, List.flatten_cons, ← List.append_assoc]
    exact ih hdone' hunread' hlines

/-- **What is sent depends on the bytes alone.** In any interleaving of a writer with the loop that
follows the file, the messages of the finished lines of all that has been written are sent in their
order: the first of them at any time, all of them when everything has been read or after enough turns,
and nothing else. The bytes behind the last newline wait. The same messages are sent when the same bytes
are written in any pieces and the file is read to its end after each. -/
theorem sent_of_written (events : List FileEvent) :
    ∃ lines rest yields, Lines (events.flatMap FileEvent.written) lines rest ∧
      List.Forall₂ LineYields lines yields ∧
      (start.run events).sent <+: yields.flatten ∧
      ((start.run events).tail.unread = [] →
        (start.run events).sent = yields.flatten ∧ (start.run events).tail.pending = rest) ∧
      (∀ n, lines.length ≤ n →
        (start.run (events ++ List.replicate n .turn)).sent = yields.flatten) ∧
      ∀ chunks : List (List UInt8), chunks.flatten = events.flatMap FileEvent.written →
        (Tail.empty.bursts chunks).flatten = yields.flatten := by
  obtain ⟨lines, rest, hlines⟩ := exists_lines (events.flatMap FileEvent.written)
  obtain ⟨done, hdone⟩ := sound_start.run events
  rw [List.nil_append] at hdone
  have hyields : (lines.map fun line => (lineMessage? line).toList).flatten =
      lines.filterMap lineMessage? := (List.filterMap_eq_flatMap_toList _ _).symm
  refine ⟨lines, rest, lines.map fun line => (lineMessage? line).toList, hlines, ?_, ?_⟩
  · rw [List.forall₂_map_right_iff, List.forall₂_same]
    exact fun line _ => lineYields_lineMessage? line
  rw [hyields]
  refine ⟨?_, hdone.of_unread hlines, ?_, ?_⟩
  · obtain ⟨more, rfl, -⟩ := hdone.exists_more hlines
    rw [hdone.sent, List.filterMap_append]
    exact List.prefix_append _ _
  · intro n hn
    have hturns := hdone.turns hlines (n := n) (by omega)
    rw [run, List.foldl_append]
    exact hturns.sent
  · intro chunks hchunks
    have hchunked : Lines ([] ++ chunks.flatten) lines rest := by
      rw [hchunks]
      exact hlines
    exact sound_start.bursts rfl hchunked

/-- A line with two fields, split inside its two-octet letter and in front of its line feed, a blank
line, an octet that is no text, and a line that is not finished. -/
def sampleEvents : List FileEvent :=
  [.write [0x61, 0x2C, 0xC3], .turn, .write [0xA9, 0x0D], .read 1, .turn, .write [0x0A, 0x0D, 0x0A],
    .turn, .turn, .write [0xFF, 0x0A, 0x62], .turn, .turn]

theorem sent_of_written_sample :
    (start.run sampleEvents).tail = ⟨[0x62], []⟩ ∧
      (start.run sampleEvents).sent =
        [.error (.rowMalformed 2),
          .error (.invalidRowField "line" "invalid utf-8 sequence of 1 bytes from index 0")] ∧
      (Tail.empty.bursts [sampleEvents.flatMap FileEvent.written]).flatten =
        (start.run sampleEvents).sent := by
  have htail : (start.run sampleEvents).tail = ⟨[0x62], []⟩ := by decide +kernel
  obtain ⟨lines, rest, yields, -, -, -, hall, -, hchunks⟩ := sent_of_written sampleEvents
  refine ⟨htail, by decide +kernel, ?_⟩
  rw [hchunks _ (List.append_nil _), (hall (by rw [htail])).1]

end Following

end SlotIndex
