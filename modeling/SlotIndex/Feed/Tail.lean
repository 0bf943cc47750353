import SlotIndex.Delivery
import SlotIndex.Diff.Row

/-!
# Following a file of diffs

A file of diffs is read from its start and followed while it grows. A line counts when its newline
has been written; until then its bytes wait.

* `takeLine`: the bytes up to the end of a line.
* `lineMessage?`: what a finished line yields.
* `Tail.turn`: one turn of the loop that follows the file.
* `Tail.drain`: turns until there is nothing left to read.
* `Tail.append`: the messages of newly written bytes.
* `Tail.fileBursts`: the messages of a file that is read in blocks.
-/

namespace SlotIndex

/-- What a source sends: a diff, or an error in place of one. -/
abbrev SourceMessage := Except StorageError Diff

/-- The byte that ends a line. -/
def newline : UInt8 := 10

/-- The bytes up to the first newline, with it, and the bytes behind it. -/
def takeLine : List UInt8 → List UInt8 × List UInt8
  | [] => ([], [])
  | b :: rest =>
    if b = newline then ([b], rest)
    else
      let r := takeLine rest
      (b :: r.1, r.2)

theorem takeLine_append (bytes : List UInt8) : (takeLine bytes).1 ++ (takeLine bytes).2 = bytes := by
  induction bytes with
  | nil => rfl
  | cons b rest ih =>
    rw [takeLine]
    split
    · rfl
    · rw [List.cons_append, ih]

theorem takeLine_of_line {body : List UInt8} (h : newline ∉ body) (rest : List UInt8) :
    takeLine (body ++ newline :: rest) = (body ++ [newline], rest) := by
  induction body with
  | nil => exact if_pos rfl
  | cons b body ih =>
    rw [List.mem_cons, not_or] at h
    rw [List.cons_append, takeLine, if_neg (Ne.symm h.1), ih h.2]
    rfl

theorem takeLine_of_not_mem {bytes : List UInt8} (h : newline ∉ bytes) :
    takeLine bytes = (bytes, []) := by
  induction bytes with
  | nil => rfl
  | cons b bytes ih =>
    rw [List.mem_cons, not_or] at h
    rw [takeLine, if_neg (Ne.symm h.1), ih h.2]

/-- A text without the line ends at its end. -/
def trimLineEnd (text : List Char) : List Char :=
  (text.reverse.dropWhile fun c => c = '\n' || c = '\r').reverse

/-- What a finished line yields: nothing when it is empty, else its diff or the error of its row. A
line that is no text yields an error of its own. -/
def lineMessage? (line : List UInt8) : Option SourceMessage :=
  match Utf8.decode line with
  | .error fault => some (.error (.invalidRowField "line" fault.message))
  | .ok text =>
    let text := trimLineEnd text
    if text = [] then none else some (Diff.ofRow (Diff.splitRow text))

/-- How far a file has been followed. -/
structure Tail where
  /-- The bytes of a line that is not finished. -/
  pending : List UInt8
  /-- Bytes of the file that have not been looked at. -/
  unread : List UInt8
deriving DecidableEq

namespace Tail

/-- Nothing has been written. -/
def empty : Tail := ⟨[], []⟩

/-- More bytes are written to the file. -/
def write (t : Tail) (bytes : List UInt8) : Tail := { t with unread := t.unread ++ bytes }

/-- What one turn of the loop comes to. -/
inductive Turn where
  /-- There is no finished line; the loop waits for more to be written. -/
  | waits (t : Tail)
  /-- A line has been dealt with, and its message, if it has one, has been delivered. -/
  | goesOn (t : Tail) (message : Option SourceMessage)
  /-- A message could not be delivered; the loop ends. -/
  | ends

/-- One turn of the loop. What has been written is read up to the end of a line, which may have begun
in earlier turns, and a line that is finished is dealt with. -/
def turn (t : Tail) (accepts : SourceMessage → Bool) : Turn :=
  let r := takeLine t.unread
  let line := t.pending ++ r.1
  if r.1 = [] ∨ line.getLast? ≠ some newline then .waits ⟨line, r.2⟩
  else
    let message := lineMessage? line
    if message.all accepts then .goesOn ⟨[], r.2⟩ message else .ends

/-- A turn that finds the end of a line deals with what waits and what is read up to there. -/
theorem turn_of_line (pending : List UInt8) {body : List UInt8} (h : newline ∉ body)
    (rest : List UInt8) (accepts : SourceMessage → Bool) :
    turn ⟨pending, body ++ newline :: rest⟩ accepts =
      let message := lineMessage? (pending ++ (body ++ [newline]))
      if message.all accepts then .goesOn ⟨[], rest⟩ message else .ends := by
  have hread : body ++ [newline] ≠ [] := List.append_ne_nil_of_right_ne_nil _ (List.cons_ne_nil _ _)
  have hlast : (pending ++ (body ++ [newline])).getLast? = some newline := by
    rw [← List.append_assoc, List.getLast?_concat]
  simp only [turn, takeLine_of_line h]
  rw [if_neg]
  rintro (hnil | hne)
  · exact hread hnil
  · exact hne hlast

/-- A turn that does not find the end of a line waits, with everything read. -/
theorem turn_of_not_mem {t : Tail} (hp : newline ∉ t.pending) (hu : newline ∉ t.unread)
    (accepts : SourceMessage → Bool) : t.turn accepts = .waits ⟨t.pending ++ t.unread, []⟩ := by
  simp only [turn, takeLine_of_not_mem hu]
  rw [if_pos]
  refine .inr fun hlast => ?_
  rcases List.mem_append.1 (List.mem_of_getLast? hlast) with h | h
  · exact hp h
  · exact hu h

/-- A turn that goes on has read something. -/
theorem length_unread_lt_of_turn {t t' : Tail} {accepts : SourceMessage → Bool}
    {message : Option SourceMessage} (h : t.turn accepts = .goesOn t' message) :
    t'.unread.length < t.unread.length := by
  simp only [turn] at h
  split at h
  · contradiction
  · rename_i hfinished
    split at h
    · cases h
      have hread : (takeLine t.unread).1.length ≠ 0 :=
        fun h0 => hfinished (.inl (List.eq_nil_of_length_eq_zero h0))
      have hlength := congrArg List.length (takeLine_append t.unread)
      rw [List.length_append] at hlength
      change (takeLine t.unread).2.length < t.unread.length
      omega
    · contradiction

/-- Read everything that has been written: the messages, in order, and the state behind them. -/
def drain (t : Tail) : List SourceMessage × Tail :=
  match _h : t.turn fun _ => true with
  | .waits t' => ([], t')
  | .goesOn t' message =>
    let r := t'.drain
    (message.toList ++ r.1, r.2)
  | .ends => ([], t)
termination_by t.unread.length
decreasing_by exact length_unread_lt_of_turn ‹_›

theorem drain_of_waits {t t' : Tail} (h : t.turn (fun _ => true) = .waits t') :
    t.drain = ([], t') := by
  rw [drain.eq_def]
  split <;> simp_all

theorem drain_of_goesOn {t t' : Tail} {message : Option SourceMessage}
    (h : t.turn (fun _ => true) = .goesOn t' message) :
    t.drain = (message.toList ++ t'.drain.1, t'.drain.2) := by
  rw [drain.eq_def]
  split <;> simp_all

/-- The messages of newly written bytes. -/
def append (t : Tail) (bytes : List UInt8) : List SourceMessage × Tail :=
  (t.write bytes).drain

/-- Bytes in blocks of a size, which is not zero; the last block may be shorter. -/
def blocks (size : Nat) (bytes : List UInt8) : List (List UInt8) :=
  go bytes.length bytes
where
  /-- The blocks, in at most the given number of steps. -/
  go : (steps : Nat) → List UInt8 → List (List UInt8)
    | 0, _ => []
    | _, [] => []
    | steps + 1, bytes => bytes.take size :: go steps (bytes.drop size)

/-- The bytes that are read from the file at a time. -/
def blockSize : Nat := 8192

/-- The messages that come of each of several reads. -/
def bursts (t : Tail) : List (List UInt8) → List (List SourceMessage)
  | [] => []
  | bytes :: rest =>
    let (messages, t) := t.append bytes
    messages :: t.bursts rest

/-- The messages of a file, in the bursts in which they are found while it is read. -/
def fileBursts (bytes : List UInt8) : List (List SourceMessage) :=
  Tail.empty.bursts (blocks blockSize bytes)

end Tail

end SlotIndex
