import SlotIndex.Json.Parse

/-!
# JSON texts that are read back

What is written for a value is read back as this value, for all values whose strings are sound and whose
numbers are spelt as numbers. Each kind of token is read in front of anything that may stand behind it, and
lists and objects follow from their parts.

* `Spells`, **`stringTokenAt_quote`**: characters inside strings, and strings.
* `IsNumber`, `Closes`, **`numberAt_append`**: numbers, and what ends them.
* `IsWritable`: the values that have a text; `Begins`: how it begins.
* `itemsWith_separate`, `membersWith_separate`: lists and objects, if their parts are read back.
* `valueAt_array`, `valueAt_object`, **`valueAt_chars`**: values, in front of what closes them.
* `parse_of_valueAt`, **`parse_render`**.
-/

namespace SlotIndex.Json

/-! ## Strings -/

/-- How a character can stand in a string: as it is, as a letter behind a backslash, or by its code. -/
inductive Spells (c : Char) : List Char → Prop where
  | plain (hquote : c ≠ '"') (hslash : c ≠ '\\') (hcontrol : 0x20 ≤ c.toNat) : Spells c [c]
  | letter {l : Char} (hl : l ≠ 'u') (hc : letterEscape? l = some c) : Spells c ['\\', l]
  | code {a b d e : Char} (hc : hex4 a b d e = some c.toNat) (hwhole : c.toNat < 0xD800) :
      Spells c ['\\', 'u', a, b, d, e]

theorem spells_escape (c : Char) : Spells c (escape c) := by
  have hchar {n : Nat} (h : c.toNat = n) : c = Char.ofNat n := by rw [← h, Char.ofNat_toNat]
  unfold escape
  split
  case h_8 n hquote hslash _ _ _ _ _ =>
    split
    · next hcontrol =>
      have hcode : ∀ n : Fin 32, hex4 '0' '0' (Hex.digit (n / 16)) (Hex.digit (n % 16)) = some n.val := by
        decide
      have hsmall : c.toNat < 256 := by omega
      have hbyte : (UInt8.ofNat c.toNat).toNat = c.toNat := UInt8.toNat_ofNat_of_lt' hsmall
      refine .code ?_ (by omega)
      rw [hbyte]
      exact hcode ⟨c.toNat, hcontrol⟩
    · next hcontrol =>
      refine .plain ?_ ?_ (by omega)
      · rintro rfl
        exact hquote rfl
      · rintro rfl
        exact hslash rfl
  all_goals
    next h =>
    rw [hchar h]
    exact .letter (by decide) rfl

/-- A character is read as one part, which is joined to the character. -/
theorem Spells.exists_part {c : Char} {text : List Char} (h : Spells c text) :
    ∃ part, (∀ tail, partsAt (text ++ tail) = (partsAt tail).map fun r => (part :: r.1, r.2)) ∧
      ∀ parts, joinParts (part :: parts) = (joinParts parts).map (c :: ·) := by
  cases h with
  | plain hquote hslash hcontrol =>
    refine ⟨.char c, fun tail => ?_, fun _ => rfl⟩
    rw [List.singleton_append, partsAt]
    · exact if_neg (not_or.2 ⟨by omega, hslash⟩)
    · exact hquote
    · exact fun _ _ _ _ _ heq => absurd heq hslash
    · exact fun _ _ heq => absurd heq hslash
  | letter hl hc =>
    refine ⟨.char c, fun tail => ?_, fun _ => rfl⟩
    rw [List.cons_append, List.singleton_append, partsAt]
    · simp only [hc]
    · exact fun _ _ _ _ _ heq => absurd heq hl
  | code hc hwhole =>
    refine ⟨.code c.toNat, fun tail => ?_, fun parts => ?_⟩
    · simp only [List.cons_append, List.nil_append, partsAt, hc]
    · have hhigh : isHighHalf c.toNat = false := by
        simp only [isHighHalf, Bool.and_eq_false_iff, decide_eq_false_iff_not]
        omega
      have hlow : isLowHalf c.toNat = false := by
        simp only [isLowHalf, Bool.and_eq_false_iff, decide_eq_false_iff_not]
        omega
      rw [joinParts.eq_def]
      simp only [hhigh, hlow, Bool.false_eq_true, if_false, Char.ofNat_toNat]

/-- **A string is read back** from its text, whatever stands behind it. -/
theorem stringTokenAt_quote (s : String) (rest : List Char) :
    stringTokenAt (s.toList.flatMap escape ++ '"' :: rest) = some (some s, rest) := by
  have hparts : ∀ cs : List Char, ∃ parts,
      partsAt (cs.flatMap escape ++ '"' :: rest) = some (parts, rest) ∧ joinParts parts = some cs := by
    intro cs
    induction cs with
    | nil => exact ⟨[], rfl, rfl⟩
    | cons c cs ih =>
      obtain ⟨parts, hparts, hjoined⟩ := ih
      obtain ⟨part, hpart, hjoin⟩ := (spells_escape c).exists_part
      refine ⟨part :: parts, ?_, ?_⟩
      · rw [List.flatMap_cons, List.append_assoc, hpart, hparts]
        rfl
      · rw [hjoin, hjoined]
        rfl
  obtain ⟨parts, hread, hjoined⟩ := hparts s.toList
  rw [stringTokenAt, hread, Option.map_some, hjoined, Option.map_some, String.ofList_toList]

/-! ## Numbers -/

/-- At least one digit and nothing else. -/
def AreDigits (ds : List Char) : Prop := ds ≠ [] ∧ ∀ c ∈ ds, c.isDigit = true

/-- The spelling of a number: a sign or none, zero or digits that do not begin with it, and perhaps a
fraction and an exponent. -/
def IsNumber (spelling : List Char) : Prop :=
  ∃ sign whole fraction exponent, spelling = sign ++ (whole ++ (fraction ++ exponent)) ∧
    (sign = [] ∨ sign = ['-']) ∧
    (whole = ['0'] ∨ AreDigits whole ∧ whole.head? ≠ some '0') ∧
    (fraction = [] ∨ ∃ ds, fraction = '.' :: ds ∧ AreDigits ds) ∧
    (exponent = [] ∨ ∃ e sign ds, exponent = e :: (sign ++ ds) ∧ (e = 'e' ∨ e = 'E') ∧
      (sign = [] ∨ sign = ['+'] ∨ sign = ['-']) ∧ AreDigits ds)

/-- What may stand behind a value: nothing, or what ends or separates the parts of lists and objects. -/
def Closes (rest : List Char) : Prop := ∀ c ∈ rest.head?, c = ',' ∨ c = ']' ∨ c = '}'

theorem closes_cons {c : Char} (h : c = ',' ∨ c = ']' ∨ c = '}') (rest : List Char) : Closes (c :: rest) := by
  rintro d ⟨⟩
  exact h

theorem AreDigits.exists_cons {ds : List Char} (h : AreDigits ds) :
    ∃ c tail, ds = c :: tail ∧ c.isDigit = true := by
  obtain ⟨hne, hall⟩ := h
  cases ds with
  | nil => exact absurd rfl hne
  | cons c tail => exact ⟨c, tail, rfl, hall c List.mem_cons_self⟩

theorem digitsAt_append {ds rest : List Char} (h : AreDigits ds)
    (hrest : ∀ c ∈ rest.head?, c.isDigit = false) : digitsAt (ds ++ rest) = some (ds, rest) := by
  have hnone : rest.takeWhile Char.isDigit = [] ∧ rest.dropWhile Char.isDigit = rest := by
    cases rest with
    | nil => exact ⟨rfl, rfl⟩
    | cons c rest =>
      have hc : ¬ c.isDigit = true := Bool.eq_false_iff.1 (hrest c rfl)
      exact ⟨List.takeWhile_cons_of_neg hc, List.dropWhile_cons_of_neg hc⟩
  obtain ⟨c, tail, rfl, -⟩ := h.exists_cons
  rw [digitsAt, List.takeWhile_append_of_pos h.2, List.dropWhile_append_of_pos h.2, hnone.1, hnone.2,
    List.append_nil]

theorem wholeAt_append {whole rest : List Char}
    (h : whole = ['0'] ∨ AreDigits whole ∧ whole.head? ≠ some '0')
    (hrest : ∀ c ∈ rest.head?, c.isDigit = false) : wholeAt (whole ++ rest) = some (whole, rest) := by
  rcases h with rfl | ⟨hdigits, hzero⟩
  · rfl
  · obtain ⟨c, tail, rfl, -⟩ := hdigits.exists_cons
    have hc : c ≠ '0' := fun hc => hzero (congrArg some hc)
    rw [← digitsAt_append hdigits hrest, List.cons_append, wholeAt]
    exact fun _ heq => absurd (List.cons.inj heq).1 hc

theorem exists_digit_of_whole {whole : List Char}
    (h : whole = ['0'] ∨ AreDigits whole ∧ whole.head? ≠ some '0') :
    ∃ c tail, whole = c :: tail ∧ c.isDigit = true := by
  rcases h with rfl | ⟨hdigits, -⟩
  · exact ⟨'0', [], rfl, rfl⟩
  · exact hdigits.exists_cons

theorem fractionAt_append {fraction rest : List Char}
    (h : fraction = [] ∨ ∃ ds, fraction = '.' :: ds ∧ AreDigits ds)
    (hrest : ∀ c ∈ rest.head?, c.isDigit = false ∧ c ≠ '.') :
    fractionAt (fraction ++ rest) = some (fraction, rest) := by
  rcases h with rfl | ⟨ds, rfl, hds⟩
  · rw [List.nil_append, fractionAt]
    rintro tail rfl
    exact (hrest '.' rfl).2 rfl
  · rw [List.cons_append, fractionAt, digitsAt_append hds fun c hc => (hrest c hc).1]
    rfl

theorem exponentAt_append {exponent rest : List Char}
    (h : exponent = [] ∨ ∃ e sign ds, exponent = e :: (sign ++ ds) ∧ (e = 'e' ∨ e = 'E') ∧
      (sign = [] ∨ sign = ['+'] ∨ sign = ['-']) ∧ AreDigits ds)
    (hrest : ∀ c ∈ rest.head?, c.isDigit = false ∧ c ≠ 'e' ∧ c ≠ 'E') :
    exponentAt (exponent ++ rest) = some (exponent, rest) := by
  rcases h with rfl | ⟨e, sign, ds, rfl, he, hsign, hds⟩
  · cases rest with
    | nil => rfl
    | cons c rest =>
      obtain ⟨-, hlower, hupper⟩ := hrest c rfl
      rw [List.nil_append, exponentAt.eq_def]
      exact if_neg (not_or.2 ⟨hlower, hupper⟩)
  · have hread := digitsAt_append hds fun c hc => (hrest c hc).1
    rw [List.cons_append, List.append_assoc, exponentAt.eq_def]
    simp only [if_pos he]
    rcases hsign with rfl | rfl | rfl
    · obtain ⟨d, tail, rfl, hd⟩ := hds.exists_cons
      have hplus : ¬ (d = '+' ∨ d = '-') := by
        rintro (rfl | rfl) <;> contradiction
      rw [List.nil_append, List.cons_append]
      simp only [if_neg hplus]
      rw [← List.cons_append, hread]
      rfl
    · simp only [List.singleton_append, true_or, if_true, hread]
      rfl
    · simp only [List.singleton_append, or_true, if_true, hread]
      rfl

/-- **The spelling of a number is read back** in front of what ends it. -/
theorem numberAt_append {spelling rest : List Char} (h : IsNumber spelling) (hrest : Closes rest) :
    numberAt (spelling ++ rest) = some (spelling, rest) := by
  obtain ⟨sign, whole, fraction, exponent, rfl, hsign, hwhole, hfraction, hexponent⟩ := h
  have hclose : ∀ c ∈ rest.head?, c.isDigit = false ∧ c ≠ 'e' ∧ c ≠ 'E' ∧ c ≠ '.' := by
    intro c hc
    rcases hrest c hc with rfl | rfl | rfl <;> decide
  have htail : ∀ c ∈ (exponent ++ rest).head?, c.isDigit = false ∧ c ≠ '.' := by
    rcases hexponent with rfl | ⟨e, _, _, rfl, he, -⟩
    · exact fun c hc => ⟨(hclose c hc).1, (hclose c hc).2.2.2⟩
    · rintro c ⟨⟩
      rcases he with rfl | rfl <;> decide
  have hback : ∀ c ∈ (fraction ++ (exponent ++ rest)).head?, c.isDigit = false := by
    rcases hfraction with rfl | ⟨_, rfl, -⟩
    · exact fun c hc => (htail c hc).1
    · rintro c ⟨⟩
      rfl
  have hunsigned : unsignedAt (whole ++ (fraction ++ (exponent ++ rest))) =
      some (whole ++ (fraction ++ exponent), rest) := by
    rw [unsignedAt, wholeAt_append hwhole hback]
    simp only [fractionAt_append hfraction htail]
    rw [exponentAt_append hexponent fun c hc => ⟨(hclose c hc).1, (hclose c hc).2.1, (hclose c hc).2.2.1⟩,
      Option.map_some, List.append_assoc]
  have hminus : ∀ tail, whole ++ (fraction ++ (exponent ++ rest)) ≠ '-' :: tail := by
    obtain ⟨c, digits, rfl, hc⟩ := exists_digit_of_whole hwhole
    rintro tail ⟨⟩
    contradiction
  simp only [List.append_assoc]
  rcases hsign with rfl | rfl
  · rw [List.nil_append, List.nil_append, numberAt, hunsigned]
    exact hminus
  · rw [List.singleton_append, numberAt, hunsigned]
    rfl

/-! ## Values -/

/-- Values that have a text: strings are sound and numbers are spelt as numbers. -/
inductive IsWritable : Json → Prop where
  | null : IsWritable .null
  | bool (b : Bool) : IsWritable (.bool b)
  | number {spelling : String} (h : IsNumber spelling.toList) : IsWritable (.number spelling)
  | string (s : String) : IsWritable (ofString s)
  | array {items : List Json} (h : ∀ j ∈ items, IsWritable j) : IsWritable (.array items)
  | object {members : List (String × Json)} (h : ∀ m ∈ members, IsWritable m.2) :
      IsWritable (ofMembers members)

variable {item : Nat → Reader Json} {member : JsonString → Reader Json} {steps : Nat}

/-- A text that begins with neither a gap nor a closing bracket. -/
def Begins (text : List Char) : Prop := ∃ c tail, text = c :: tail ∧ isGap c = false ∧ c ≠ ']'

theorem Begins.append {text : List Char} (h : Begins text) (rest : List Char) : Begins (text ++ rest) := by
  obtain ⟨c, tail, rfl, hgap, hclose⟩ := h
  exact ⟨c, tail ++ rest, rfl, hgap, hclose⟩

theorem begins_of_isDigit {c : Char} (h : c.isDigit = true) (tail : List Char) : Begins (c :: tail) := by
  refine ⟨c, tail, rfl, ?_, ?_⟩
  · rw [Bool.eq_false_iff]
    intro hgap
    simp only [isGap, Bool.or_eq_true, decide_eq_true_eq] at hgap
    rcases hgap with ((rfl | rfl) | rfl) | rfl <;> contradiction
  · rintro rfl
    contradiction

/-- A number begins with its sign or with a digit. -/
theorem IsNumber.exists_cons {spelling : List Char} (h : IsNumber spelling) :
    ∃ c tail, spelling = c :: tail ∧ (c = '-' ∨ c.isDigit = true) := by
  obtain ⟨sign, whole, fraction, exponent, rfl, rfl | rfl, hwhole, -⟩ := h
  · obtain ⟨c, digits, rfl, hc⟩ := exists_digit_of_whole hwhole
    exact ⟨c, _, rfl, .inr hc⟩
  · exact ⟨'-', _, rfl, .inl rfl⟩

theorem IsWritable.begins {j : Json} (h : IsWritable j) : Begins j.chars := by
  cases h with
  | null => exact ⟨'n', _, rfl, rfl, by decide⟩
  | bool b => cases b <;> exact ⟨_, _, rfl, rfl, by decide⟩
  | number h =>
    obtain ⟨c, tail, htext, rfl | hc⟩ := h.exists_cons
    · exact ⟨'-', tail, htext, rfl, by decide⟩
    · rw [chars, htext]
      exact begins_of_isDigit hc tail
  | string s => exact ⟨'"', _, rfl, rfl, by decide⟩
  | array _ => exact ⟨'[', _, rfl, rfl, by decide⟩
  | object _ => exact ⟨'{', _, rfl, rfl, by decide⟩

theorem skipGap_cons {c : Char} (h : isGap c = false) (tail : List Char) :
    skipGap (c :: tail) = c :: tail :=
  List.dropWhile_cons_of_neg (Bool.eq_false_iff.1 h)

/-- A value that begins with a sign or a digit is a number. -/
theorem valueWith_number {c : Char} (hc : c = '-' ∨ c.isDigit = true) (tail : List Char) :
    valueWith item member steps (c :: tail) =
      (numberAt (c :: tail)).map fun r => (.number (String.ofList r.1), r.2) := by
  rcases hc with rfl | hc
  · rfl
  · obtain ⟨_, _, ⟨⟩, hgap, -⟩ := begins_of_isDigit hc tail
    rw [valueWith, skipGap_cons hgap]
    split
    case h_7 => rfl
    all_goals
      next heq =>
      obtain rfl := (List.cons.inj heq).1
      contradiction

theorem valueWith_array {text : List Char} (h : Begins text) :
    valueWith item member steps ('[' :: text) =
      (itemsWith item steps 0 text).map fun r => (.array r.1, r.2) := by
  obtain ⟨c, tail, rfl, hgap, hclose⟩ := h
  have hopen : skipGap ('[' :: c :: tail) = '[' :: c :: tail := rfl
  simp only [valueWith, hopen, skipGap_cons hgap]
  split
  · next heq => exact absurd (List.cons.inj heq).1 hclose
  · rfl

theorem valueWith_object (text : List Char) :
    valueWith item member steps ('{' :: '"' :: text) =
      (membersWith member steps ('"' :: text)).map fun r => (.object r.1, r.2) := rfl

/-! ## Lists and objects -/

theorem itemTexts_eq_map (items : List Json) : itemTexts items = items.map chars := by
  induction items with
  | nil => rfl
  | cons j items ih => rw [itemTexts, ih, List.map_cons]

/-- The text of a member with a sound name. -/
def memberText (m : String × Json) : List Char := quote m.1 ++ ':' :: chars m.2

theorem memberTexts_eq_map (members : List (String × Json)) :
    memberTexts (members.map fun m => (some m.1, m.2)) = members.map memberText := by
  induction members with
  | nil => rfl
  | cons m members ih =>
    rw [List.map_cons, memberTexts, ih]
    rfl

theorem separate_cons_cons (text next : List Char) (texts : List (List Char)) :
    separate (text :: next :: texts) = text ++ ',' :: separate (next :: texts) := rfl

theorem length_le_separate {text : List Char} {texts : List (List Char)} (h : text ∈ texts) :
    text.length ≤ (separate texts).length := by
  induction texts with
  | nil => contradiction
  | cons first texts ih =>
    cases texts with
    | nil => exact Nat.le_of_eq (congrArg _ (List.mem_singleton.1 h))
    | cons next texts =>
      rw [separate_cons_cons, List.length_append, List.length_cons]
      rcases List.mem_cons.1 h with rfl | h
      · omega
      · have := ih h
        omega

/-- There are no more parts than characters, if no part is empty. -/
theorem length_texts_le_separate {texts : List (List Char)} (h : ∀ text ∈ texts, text ≠ []) :
    texts.length ≤ (separate texts).length := by
  induction texts with
  | nil => exact Nat.zero_le _
  | cons first texts ih =>
    rw [List.forall_mem_cons] at h
    have hfirst := List.length_pos_iff.2 h.1
    cases texts with
    | nil => exact hfirst
    | cons next texts =>
      have hrest := ih h.2
      rw [separate_cons_cons, List.length_append, List.length_cons, List.length_cons (a := ',')]
      omega

/-- **The items of an array** are read back, if each of them is. -/
theorem itemsWith_separate {items : List Json} (hne : items ≠ [])
    (hread : ∀ j ∈ items, ∀ index rest, Closes rest → item index (chars j ++ rest) = some (j, rest))
    (hsteps : items.length ≤ steps) (index : Nat) (rest : List Char) :
    itemsWith item steps index (separate (items.map chars) ++ ']' :: rest) = some (items, rest) := by
  induction items generalizing steps index with
  | nil => exact absurd rfl hne
  | cons j items ih =>
    obtain ⟨steps, rfl⟩ : ∃ n, steps = n + 1 := ⟨steps - 1, by rw [List.length_cons] at hsteps; omega⟩
    rw [List.forall_mem_cons] at hread
    cases items with
    | nil =>
      change itemsWith item (steps + 1) index (chars j ++ ']' :: rest) = _
      rw [itemsWith, hread.1 index _ (closes_cons (.inr (.inl rfl)) rest)]
      rfl
    | cons next items =>
      have hmore := ih (List.cons_ne_nil _ _) hread.2 (Nat.le_of_succ_le_succ hsteps) (index + 1)
      rw [List.map_cons, List.map_cons, separate_cons_cons, List.append_assoc, List.cons_append,
        ← List.map_cons, itemsWith, hread.1 index _ (closes_cons (.inl rfl) _)]
      change (itemsWith item steps (index + 1)
        (separate ((next :: items).map chars) ++ ']' :: rest)).map _ = _
      rw [hmore]
      rfl

theorem memberText_append (m : String × Json) (rest : List Char) :
    memberText m ++ rest =
      '"' :: (m.1.toList.flatMap escape ++ '"' :: ':' :: (chars m.2 ++ rest)) := by
  simp [memberText, quote]

theorem membersWith_last {m : String × Json} {rest : List Char}
    (h : member (some m.1) (chars m.2 ++ '}' :: rest) = some (m.2, '}' :: rest)) :
    membersWith member (steps + 1) (memberText m ++ '}' :: rest) = some ([(some m.1, m.2)], rest) := by
  simp only [memberText_append, membersWith, skipGap_cons (c := '"') rfl, stringTokenAt_quote,
    skipGap_cons (c := ':') rfl, h, skipGap_cons (c := '}') rfl]

theorem membersWith_next {m : String × Json} {rest : List Char}
    (h : member (some m.1) (chars m.2 ++ ',' :: rest) = some (m.2, ',' :: rest)) :
    membersWith member (steps + 1) (memberText m ++ ',' :: rest) =
      (membersWith member steps rest).map fun r => ((some m.1, m.2) :: r.1, r.2) := by
  simp only [memberText_append, membersWith, skipGap_cons (c := '"') rfl, stringTokenAt_quote,
    skipGap_cons (c := ':') rfl, h, skipGap_cons (c := ',') rfl]

/-- **The members of an object** are read back, if the value of each of them is. -/
theorem membersWith_separate {members : List (String × Json)} (hne : members ≠ [])
    (hread : ∀ m ∈ members, ∀ rest, Closes rest →
      member (some m.1) (chars m.2 ++ rest) = some (m.2, rest))
    (hsteps : members.length ≤ steps) (rest : List Char) :
    membersWith member steps (separate (members.map memberText) ++ '}' :: rest) =
      some (members.map fun m => (some m.1, m.2), rest) := by
  induction members generalizing steps with
  | nil => exact absurd rfl hne
  | cons m members ih =>
    obtain ⟨steps, rfl⟩ : ∃ n, steps = n + 1 := ⟨steps - 1, by rw [List.length_cons] at hsteps; omega⟩
    rw [List.forall_mem_cons] at hread
    cases members with
    | nil => exact membersWith_last (hread.1 _ (closes_cons (.inr (.inr rfl)) rest))
    | cons next members =>
      have hmore := ih (List.cons_ne_nil _ _) hread.2 (Nat.le_of_succ_le_succ hsteps)
      rw [List.map_cons, List.map_cons, separate_cons_cons, List.append_assoc, List.cons_append,
        ← List.map_cons, membersWith_next (hread.1 _ (closes_cons (.inl rfl) _)), hmore]
      rfl

/-- There are steps for the longest part and for the number of parts. -/
theorem enough_steps {texts : List (List Char)} (hfull : ∀ text ∈ texts, text ≠ [])
    (h : (separate texts).length + 1 + 1 ≤ steps + 1) :
    ∃ n, steps = n + 1 ∧ (∀ text ∈ texts, text.length ≤ n + 1) ∧ texts.length ≤ n + 1 := by
  have hcount := length_texts_le_separate hfull
  refine ⟨steps - 1, by omega, fun text htext => ?_, by omega⟩
  have := length_le_separate htext
  omega

theorem begins_separate {items : List Json} (hne : items ≠ []) (h : ∀ j ∈ items, Begins j.chars) :
    Begins (separate (items.map chars)) := by
  cases items with
  | nil => exact absurd rfl hne
  | cons j items =>
    have hj := h j List.mem_cons_self
    cases items with
    | nil => exact hj
    | cons next items => exact hj.append _

/-- The text of members begins with the quote of the first name. -/
theorem exists_quote_separate {members : List (String × Json)} (hne : members ≠ []) (rest : List Char) :
    ∃ tail, separate (members.map memberText) ++ rest = '"' :: tail := by
  cases members with
  | nil => exact absurd rfl hne
  | cons m members => cases members <;> exact ⟨_, rfl⟩

theorem length_chars_le (m : String × Json) : (chars m.2).length ≤ (memberText m).length := by
  rw [memberText, List.length_append, List.length_cons]
  omega

/-! ## Round trip -/

theorem IsWritable.chars_ne_nil {j : Json} (h : IsWritable j) : j.chars ≠ [] := by
  obtain ⟨c, tail, htext, -⟩ := h.begins
  rw [htext]
  exact List.cons_ne_nil c tail

/-- An array is read back, if there are steps for each of its items and for their number. -/
theorem valueAt_array {items : List Json} (h : ∀ j ∈ items, IsWritable j)
    (hread : ∀ j ∈ items, ∀ rest, Closes rest → valueAt steps (j.chars ++ rest) = some (j, rest))
    (hsteps : items.length ≤ steps) (rest : List Char) :
    valueAt (steps + 1) ((Json.array items).chars ++ rest) = some (.array items, rest) := by
  by_cases hne : items = []
  · subst hne
    rfl
  · have htext : (Json.array items).chars ++ rest = '[' :: (separate (items.map chars) ++ ']' :: rest) := by
      simp [chars, itemTexts_eq_map]
    have hbegins : Begins (separate (items.map chars)) :=
      begins_separate hne fun j hj => (h j hj).begins
    rw [valueAt, htext, valueWith_array (hbegins.append _),
      itemsWith_separate hne (fun j hj _ => hread j hj) hsteps 0 rest]
    rfl

/-- An object is read back, if there are steps for the value of each member and for the number of members. -/
theorem valueAt_object {members : List (String × Json)}
    (hread : ∀ m ∈ members, ∀ rest, Closes rest → valueAt steps (m.2.chars ++ rest) = some (m.2, rest))
    (hsteps : members.length ≤ steps) (rest : List Char) :
    valueAt (steps + 1) ((ofMembers members).chars ++ rest) = some (ofMembers members, rest) := by
  by_cases hne : members = []
  · subst hne
    rfl
  · have htext : (ofMembers members).chars ++ rest =
        '{' :: (separate (members.map memberText) ++ '}' :: rest) := by
      simp [ofMembers, chars, memberTexts_eq_map]
    have hmembers := @membersWith_separate (fun _ => valueAt steps) _ members hne hread hsteps rest
    obtain ⟨tail, htail⟩ := exists_quote_separate hne ('}' :: rest)
    rw [htail] at hmembers
    rw [valueAt, htext, htail, valueWith_object, hmembers]
    rfl

/-- **A value is read back** from its text, in front of what closes it. There are at least as many steps
as characters, which is enough for the parts of a list or an object: each of them is shorter than the
whole, and there are fewer of them than characters. -/
theorem valueAt_chars {j : Json} (h : IsWritable j) {rest : List Char} (hsteps : j.chars.length ≤ steps + 1)
    (hrest : Closes rest) : valueAt (steps + 1) (j.chars ++ rest) = some (j, rest) := by
  induction h generalizing steps rest with
  | null => rfl
  | bool b => cases b <;> rfl
  | @number spelling h =>
    obtain ⟨c, tail, htext, hc⟩ := h.exists_cons
    rw [valueAt, chars, htext, List.cons_append, valueWith_number hc, ← List.cons_append, ← htext,
      numberAt_append h hrest, Option.map_some, String.ofList_toList]
  | string s =>
    have htext : (ofString s).chars ++ rest = '"' :: (s.toList.flatMap escape ++ '"' :: rest) := by
      simp [ofString, chars, quote]
    rw [htext]
    change (stringTokenAt _).map _ = _
    rw [stringTokenAt_quote]
    rfl
  | @array items h ih =>
    rw [chars, itemTexts_eq_map, List.length_cons, List.length_append, List.length_singleton] at hsteps
    obtain ⟨steps, rfl, heach, hcount⟩ := enough_steps
      (List.forall_mem_map.2 fun j hj => (h j hj).chars_ne_nil) hsteps
    rw [List.length_map] at hcount
    exact valueAt_array h (fun j hj _ hrest => ih j hj (heach _ (List.mem_map_of_mem hj)) hrest) hcount rest
  | @object members h ih =>
    rw [ofMembers, chars, memberTexts_eq_map, List.length_cons, List.length_append,
      List.length_singleton] at hsteps
    obtain ⟨steps, rfl, heach, hcount⟩ := enough_steps
      (List.forall_mem_map.2 fun m _ => List.cons_ne_nil _ _) hsteps
    rw [List.length_map] at hcount
    refine valueAt_object (fun m hm _ hrest => ih m hm ?_ hrest) hcount rest
    exact Nat.le_trans (length_chars_le m) (heach _ (List.mem_map_of_mem hm))

/-- A text is read if nothing is left of it. -/
theorem parse_of_valueAt {text : String} {j : Json}
    (h : valueAt (text.toList.length + 1) text.toList = some (j, [])) : parse text = some j := by
  rw [parse, parseWith]
  simp only [h]
  rfl

/-- **A value is read back from its text.** -/
theorem parse_render {j : Json} (h : IsWritable j) : parse j.render = some j := by
  have hread : valueAt (j.chars.length + 1) (j.chars ++ []) = some (j, []) :=
    valueAt_chars h (Nat.le_succ _) fun _ hc => by contradiction
  rw [List.append_nil] at hread
  apply parse_of_valueAt
  rw [render, String.toList_ofList]
  exact hread

end SlotIndex.Json
