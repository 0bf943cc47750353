import SlotIndex.Cli

/-!
# Parts of a command line

A command line is made of parts: words that are no flags, and flags with their values. Whatever a value
looks like, it belongs to the flag in front of it, so that the parts are taken in one by one.

* `Part`, `arguments`: a line and its parts; `wordsIn`, `pairsIn` take them apart.
* `Part.take`, **`scan_arguments`**: reading a line takes in its parts.
* `takeAll_known`: at most one word and known flags are taken in to the end.
* `parse_eq_of_alike`: what a line asks for depends on what is found under the flags, not on their order.
* **`parse_overridden`**: a pair counts for nothing when its flag is given again behind it.
-/

namespace SlotIndex.Invocation

/-- A part of a command line. -/
inductive Part where
  /-- A word that does not begin with two dashes. -/
  | word (text : String) (plain : ¬ ['-', '-'] <+: text.toList)
  | pair (flag value : String)

/-- The arguments that a part stands for. -/
def Part.arguments : Part → List String
  | .word text _ => [text]
  | .pair flag value => ["--" ++ flag, value]

/-- The arguments of a line. -/
def arguments (parts : List Part) : List String := parts.flatMap Part.arguments

/-- The words among parts. -/
def wordsIn : List Part → List String
  | [] => []
  | .word text _ :: parts => text :: wordsIn parts
  | .pair _ _ :: parts => wordsIn parts

/-- The flags among parts with their values. -/
def pairsIn : List Part → List (String × String)
  | [] => []
  | .word _ _ :: parts => pairsIn parts
  | .pair flag value :: parts => (flag, value) :: pairsIn parts

/-- What has been read of a line: the command word and the flags. -/
abbrev Reading := Option String × Flags

/-- What has been read with one part more. -/
def Part.take (read : Reading) : Part → Except CliError Reading
  | .word text _ =>
    match read.1 with
    | none => .ok (some text, read.2)
    | some _ => .error (.unexpectedArgument text)
  | .pair flag value =>
    if flag ∈ knownFlags then .ok (read.1, read.2.insert flag value) else .error (.unknownFlag flag)

/-- What has been read with more parts. -/
def takeAll (read : Reading) (parts : List Part) : Except CliError Reading :=
  parts.foldlM Part.take read

variable {read read' : Reading} {parts front back : List Part} {flag value : String}

/-! ## Reading parts -/

theorem flagName?_mark (flag : String) : flagName? ("--" ++ flag) = some flag := by
  have htext : ("--" ++ flag).toList = '-' :: '-' :: flag.toList := by
    rw [String.toList_append]
    rfl
  rw [flagName?, htext]
  exact congrArg some String.ofList_toList

theorem flagName?_plain {text : String} (plain : ¬ ['-', '-'] <+: text.toList) :
    flagName? text = none := by
  unfold flagName?
  split
  · next name hname => exact absurd (hname ▸ ⟨name, rfl⟩) plain
  · rfl

/-- The arguments of a part are read as the part. -/
theorem scan_part (part : Part) (rest : List String) :
    scan read.1 read.2 (part.arguments ++ rest) =
      part.take read >>= fun read => scan read.1 read.2 rest := by
  obtain ⟨command, flags⟩ := read
  cases part with
  | word text plain =>
    rw [Part.arguments, List.singleton_append, scan.eq_def]
    simp only [flagName?_plain plain]
    cases command <;> rfl
  | pair flag value =>
    change scan command flags (("--" ++ flag) :: value :: rest) = _
    rw [scan.eq_def]
    simp only [flagName?_mark, Part.take]
    by_cases hflag : flag ∈ knownFlags
    · rw [if_pos hflag, if_pos hflag]
      rfl
    · rw [if_neg hflag, if_neg hflag]
      rfl

/-- **Reading a line** takes in its parts one by one. -/
theorem scan_arguments (parts : List Part) :
    scan read.1 read.2 (arguments parts) = takeAll read parts := by
  induction parts generalizing read with
  | nil => rfl
  | cons part parts ih =>
    rw [arguments, List.flatMap_cons, ← arguments, scan_part, takeAll, List.foldlM_cons]
    exact congrArg _ (funext fun read => ih)

theorem parse_arguments (parts : List Part) :
    parse (arguments parts) = takeAll (none, Table.empty) parts >>= fun read =>
      commandOf read.2 (read.1.getD "watch") >>= fun command =>
        pure ⟨(read.2.get? "config").getD defaultConfig, command⟩ := by
  have hscan : scan none Table.empty (arguments parts) = takeAll (none, Table.empty) parts :=
    @scan_arguments (none, Table.empty) parts
  rw [parse, hscan]

/-- **At most one word and known flags** are taken in to the end, in the order in which they stand. -/
theorem takeAll_known (hflags : ∀ p ∈ pairsIn parts, p.1 ∈ knownFlags)
    (hwords : (read.1.toList ++ wordsIn parts).length ≤ 1) :
    takeAll read parts = .ok ((read.1.toList ++ wordsIn parts).head?, read.2.insertAll (pairsIn parts)) := by
  induction parts generalizing read with
  | nil =>
    obtain ⟨command, flags⟩ := read
    cases command <;> rfl
  | cons part parts ih =>
    obtain ⟨command, flags⟩ := read
    rw [takeAll, List.foldlM_cons]
    cases part with
    | word text plain =>
      cases command with
      | none => exact ih hflags hwords
      | some first => simp [wordsIn] at hwords
    | pair flag value =>
      rw [pairsIn, List.forall_mem_cons] at hflags
      rw [Part.take, if_pos hflags.1]
      exact ih hflags.2 hwords

/-! ## What counts in what has been read -/

/-- What has been read, up to the order in which the flags were found. -/
def Reading.view (read : Reading) : Option String × (String → Option String) :=
  (read.1, read.2.get?)

theorem commandOf_congr {flags flags' : Flags} (h : flags.get? = flags'.get?) (word : String) :
    commandOf flags word = commandOf flags' word := by
  have hnumber (flag : String) : number flags flag = number flags' flag := by
    unfold number
    rw [h]
  have hlist (flag : String) : list flags flag = list flags' flag := by
    unfold list
    rw [h]
  unfold commandOf requiredNumber
  simp only [hnumber, hlist]

/-- What parts ask for depends on what is found under their flags, not on the order. -/
theorem parse_eq_of_alike
    (h : (takeAll (none, Table.empty) front).map Reading.view =
      (takeAll (none, Table.empty) back).map Reading.view) :
    parse (arguments front) = parse (arguments back) := by
  rw [parse_arguments, parse_arguments]
  generalize takeAll (none, Table.empty) front = result, takeAll (none, Table.empty) back = result' at h
  cases result with
  | error e =>
    cases result' with
    | error e' =>
      cases h
      rfl
    | ok read' => contradiction
  | ok read =>
    cases result' with
    | error e' => contradiction
    | ok read' =>
      obtain ⟨hword, hflags⟩ := Prod.mk.inj (Except.ok.inj h)
      simp only [bind, Except.bind, hword, commandOf_congr hflags, hflags]

/-- **Flags that are given again** need not be looked at: readings in which the same is found under all
others lead to the same. -/
theorem alike_of_get? (hword : read.1 = read'.1)
    (hflags : ∀ flag, flag ∉ (pairsIn parts).map Prod.fst → read.2.get? flag = read'.2.get? flag) :
    (takeAll read parts).map Reading.view = (takeAll read' parts).map Reading.view := by
  induction parts generalizing read read' with
  | nil =>
    have hsame : read.2.get? = read'.2.get? := funext fun flag => hflags flag List.not_mem_nil
    change Except.ok (read.1, read.2.get?) = Except.ok (read'.1, read'.2.get?)
    rw [hword, hsame]
  | cons part parts ih =>
    obtain ⟨command, flags⟩ := read
    obtain ⟨_, flags'⟩ := read'
    obtain rfl : command = _ := hword
    rw [takeAll, takeAll, List.foldlM_cons, List.foldlM_cons]
    cases part with
    | word text plain =>
      cases command with
      | none => exact ih rfl hflags
      | some first => rfl
    | pair flag value =>
      rw [Part.take, Part.take]
      by_cases hknown : flag ∈ knownFlags
      · rw [if_pos hknown, if_pos hknown]
        refine ih rfl fun other hother => ?_
        rw [Table.get?_insert, Table.get?_insert]
        split
        · rfl
        · next hne => exact hflags other (List.not_mem_cons_of_ne_of_not_mem hne hother)
      · rw [if_neg hknown, if_neg hknown]

/-- **A pair counts for nothing** when its flag is given again behind it. -/
theorem parse_overridden (hflag : flag ∈ knownFlags) (hagain : flag ∈ (pairsIn back).map Prod.fst) :
    parse (arguments (front ++ .pair flag value :: back)) = parse (arguments (front ++ back)) := by
  apply parse_eq_of_alike
  rw [takeAll, takeAll, List.foldlM_append, List.foldlM_append]
  cases front.foldlM Part.take (none, Table.empty) with
  | error e => rfl
  | ok read =>
    change ((Part.take read (.pair flag value)) >>= fun read => takeAll read back).map Reading.view =
      (takeAll read back).map Reading.view
    rw [Part.take, if_pos hflag]
    refine alike_of_get? rfl fun other hother => ?_
    have hne : other ≠ flag := fun heq => hother (heq ▸ hagain)
    rw [Table.get?_insert, if_neg hne]

end SlotIndex.Invocation
