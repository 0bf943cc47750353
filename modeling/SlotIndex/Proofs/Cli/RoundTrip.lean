import SlotIndex.Proofs.Cli.Arguments
import SlotIndex.Proofs.Fallible
import SlotIndex.Proofs.Word.Reading

/-!
# Command lines that write an invocation

An invocation is written as its command word, which the command to watch may omit, and a pair for each of
its values, in any order. Heights are decimal numbers, and lists hold their texts with commas between them.
What is read from such a line is the invocation, whatever the values look like.

* `WritesHeight`, `WritesKey`, `IsListed`: the texts of values; `list_eq`, `listed_intercalate`: lists.
* `Command.IsGivenBy`: the pairs of a command; `omissible`: those that say what is assumed without them.
* `IsWrittenIn`: lines of an invocation.
* `Hold`, `Hold.commandOf_eq_ok`: what is found under the flags gives the command.
* **`written_is_read`**: from every line of an invocation the invocation is read, each invocation has a
  line, and pairs that are overridden change nothing.
-/

namespace SlotIndex

theorem splitAtCommas_eq_splitOn (text : List Char) : splitAtCommas text = text.splitOn ',' := by
  induction text with
  | nil => rfl
  | cons c text ih =>
    rw [splitAtCommas, List.foldr_cons, ← splitAtCommas, ih, List.splitOn_eq_splitOnP,
      List.splitOn_eq_splitOnP, List.splitOnP_cons_eq_if_modifyHead]
    by_cases hc : c = ','
    · simp [hc]
    · have hne : text.splitOnP (· == ',') ≠ [] := List.splitOnP_ne_nil _ _
      cases hparts : text.splitOnP (· == ',') with
      | nil => exact absurd hparts hne
      | cons part parts => simp [hc]

namespace Invocation

/-! ## Values -/

/-- A text that is read as a height: decimal digits, perhaps behind a plus sign. -/
def WritesHeight (n : UInt64) (text : String) : Prop :=
  ∃ sign digits values, text.toList = sign ++ digits ∧ (sign = [] ∨ sign = ['+']) ∧
    Decimal.Digits digits values ∧ digits ≠ [] ∧ Decimal.number values = n.toNat

/-- A text that is read as a key: a mark and two hexadecimal digits for each of at most 32 bytes. -/
def WritesKey (key : Word) (text : String) : Prop :=
  ∃ digits values, text.toList = '0' :: 'x' :: digits ∧ Hex.Digits digits values ∧
    digits.length % 2 = 0 ∧ digits.length ≤ 64 ∧ Hex.number values = key.toNat

/-- A text that stands in a list as it is. -/
structure IsListed (text : String) : Prop where
  ne_empty : text ≠ ""
  no_comma : ',' ∉ text.toList
  trimmed : Text.trim text.toList = text.toList

theorem writesHeight_text (n : UInt64) : WritesHeight n (Decimal.text n.toNat) := by
  obtain ⟨values, hdigits, hnumber⟩ := Decimal.exists_digits n.toNat
  exact ⟨[], _, values, Decimal.toList_text _, .inl rfl, hdigits, Decimal.digits_ne_nil _, hnumber⟩

theorem writesKey_text (key : Word) : WritesKey key key.text := by
  have hlength := Hex.length_encode_bytes key.bytes
  rw [Word.length_bytes] at hlength
  refine ⟨_, _, String.toList_ofList, Hex.digits_encode key.bytes, ?_, ?_, ?_⟩
  · omega
  · omega
  · rw [Hex.number_nibbles, Word.toNat_bytes]

theorem readUInt64_of_writes {n : UInt64} {text : String} (h : WritesHeight n text) :
    Decimal.readUInt64 text.toList = .ok n := by
  obtain ⟨sign, digits, values, htext, hsign, hdigits, hne, hnumber⟩ := h
  have hlt : Decimal.number values < UInt64.size := hnumber ▸ n.toNat_lt
  rw [Decimal.readUInt64, htext, Decimal.readUnsigned_digits hsign hdigits hne hlt, hnumber]
  exact congrArg Except.ok UInt64.ofNat_toNat

theorem parse_of_writesKey {key : Word} {text : String} (h : WritesKey key text) :
    Word.parse text = .ok key := by
  obtain ⟨digits, values, htext, hdigits, heven, hlength, hnumber⟩ := h
  rw [Word.parse_hexDigits htext hdigits heven hlength, hnumber, Word.ofNat_toNat]

theorem isListed_of_writesKey {key : Word} {text : String} (h : WritesKey key text) : IsListed text := by
  obtain ⟨digits, values, htext, hdigits, -⟩ := h
  refine ⟨?_, ?_, ?_⟩
  · rintro rfl
    contradiction
  · rw [htext, List.mem_cons, List.mem_cons]
    rintro (hcomma | hcomma | hcomma)
    · contradiction
    · contradiction
    · exact hdigits.not_mem rfl hcomma
  · rw [htext]
    refine Text.trim_of_no_blanks ?_
    rw [List.forall_mem_cons, List.forall_mem_cons]
    exact ⟨rfl, rfl, hdigits.forall_mem Hex.IsDigit.not_blank⟩

theorem isListed_of_writesKeys {keys : List Word} {texts : List String}
    (h : List.Forall₂ WritesKey keys texts) : ∀ text ∈ texts, IsListed text := by
  induction h with
  | nil => exact fun _ htext => absurd htext List.not_mem_nil
  | cons hkey _ ih => exact List.forall_mem_cons.2 ⟨isListed_of_writesKey hkey, ih⟩

/-- The texts of a list that is written with commas between them. -/
def listed (written : String) : List String :=
  (((splitAtCommas written.toList).map Text.trim).filter (· ≠ [])).map String.ofList

/-- A list that is not given is the one that is written as the empty text. -/
theorem list_eq (flags : Flags) (flag : String) :
    list flags flag = listed ((flags.get? flag).getD "") := by
  unfold list
  cases flags.get? flag with
  | none => rfl
  | some written => rfl

theorem listed_intercalate {texts : List String} (h : ∀ text ∈ texts, IsListed text) :
    listed (",".intercalate texts) = texts := by
  cases texts with
  | nil => rfl
  | cons text texts =>
    have hcommas : ∀ t ∈ (text :: texts).map String.toList, ',' ∉ t :=
      List.forall_mem_map.2 fun t ht => (h t ht).no_comma
    have htrim : ((text :: texts).map String.toList).map Text.trim =
        (text :: texts).map String.toList := by
      rw [List.map_map]
      exact List.map_congr_left fun t ht => (h t ht).trimmed
    have hfull : ∀ t ∈ (text :: texts).map String.toList, decide (t ≠ []) = true := by
      refine List.forall_mem_map.2 fun t ht => decide_eq_true fun hnil => (h t ht).ne_empty ?_
      rwa [String.toList_eq_nil_iff] at hnil
    rw [listed, String.toList_intercalate, splitAtCommas_eq_splitOn]
    change (((List.splitOn ',' ([','].intercalate _)).map Text.trim).filter _).map _ = _
    rw [List.splitOn_intercalate ',' hcommas (List.cons_ne_nil _ _), htrim,
      List.filter_eq_self.2 hfull, List.map_map]
    exact (List.map_congr_left fun t _ => String.ofList_toList).trans (List.map_id _)

end Invocation

/-! ## Lines of an invocation -/

/-- The word of a command. -/
def Command.word : Command → String
  | .watch => "watch"
  | .backfill .. => "backfill"
  | .loadValues _ => "load-values"

theorem Command.plain_word (command : Command) : ¬ ['-', '-'] <+: command.word.toList := by
  cases command with
  | watch => change ¬ ['-', '-'] <+: "watch".toList; decide
  | backfill => change ¬ ['-', '-'] <+: "backfill".toList; decide
  | loadValues => change ¬ ['-', '-'] <+: "load-values".toList; decide

open Invocation in
/-- Flags with values that give a command. -/
inductive Command.IsGivenBy : Command → List (String × String) → Prop where
  | watch : IsGivenBy .watch []
  | backfill {first last : UInt64} {batchSize : Option UInt64} {contracts : List String}
      {keys : List Word} {firstText lastText : String} {sizeTexts keyTexts : List String}
      (hfirst : WritesHeight first firstText) (hlast : WritesHeight last lastText)
      (hsize : List.Forall₂ WritesHeight batchSize.toList sizeTexts)
      (hcontracts : ∀ contract ∈ contracts, IsListed contract)
      (hkeys : List.Forall₂ WritesKey keys keyTexts) :
      IsGivenBy (.backfill first last batchSize contracts keys)
        (("from", firstText) :: ("to", lastText) :: ("contract", ",".intercalate contracts) ::
          ("key", ",".intercalate keyTexts) :: sizeTexts.map fun text => ("batch-size", text))
  | loadValues {block : UInt64} {blockText : String} (hblock : WritesHeight block blockText) :
      IsGivenBy (.loadValues block) [("block", blockText)]

namespace Invocation

/-- Pairs that say what is assumed without them. -/
def omissible : List (String × String) := [("config", defaultConfig), ("contract", ""), ("key", "")]

/-- The parts of a line write an invocation: its word, unless it is to watch, and the pairs that give it,
in any order, without some that may be omitted. -/
structure IsWrittenIn (invocation : Invocation) (parts : List Part) : Prop where
  word : wordsIn parts = [invocation.command.word] ∨
    invocation.command = .watch ∧ wordsIn parts = []
  pairs : ∃ given omitted, invocation.command.IsGivenBy given ∧
    (pairsIn parts ++ omitted).Perm (("config", invocation.config) :: given) ∧
    ∀ pair ∈ omitted, pair ∈ omissible

/-- Flags hold given pairs, but for some that may be omitted, and nothing else. -/
structure Hold (flags : Flags) (given : List (String × String)) : Prop where
  found : ∀ pair ∈ given, flags.get? pair.1 = some pair.2 ∨
    flags.get? pair.1 = none ∧ pair ∈ omissible
  only : ∀ flag, flag ∉ given.map Prod.fst → flags.get? flag = none

variable {flags : Flags} {given : List (String × String)} {command : Command} {flag text : String}

/-- What is written holds what is given, in whatever order. -/
theorem hold_ofList {written omitted : List (String × String)} (hperm : (written ++ omitted).Perm given)
    (homitted : ∀ pair ∈ omitted, pair ∈ omissible) (hnodup : (given.map Prod.fst).Nodup) :
    Hold (Table.ofList written) given := by
  have hkeys : (written.map Prod.fst ++ omitted.map Prod.fst).Nodup := by
    rw [← List.map_append]
    exact (hperm.map Prod.fst).nodup_iff.2 hnodup
  have hentries : (Table.ofList written).entries = written :=
    Table.entries_ofList (List.nodup_append.1 hkeys).1
  have hnone (flag : String) (h : flag ∉ written.map Prod.fst) :
      (Table.ofList written).get? flag = none := by
    rw [← Option.not_isSome_iff_eq_none, Table.isSome_get?, Table.mem_keys_ofList]
    exact h
  constructor
  · intro pair hpair
    rcases List.mem_append.1 (hperm.mem_iff.2 hpair) with hin | hin
    · rw [← hentries] at hin
      exact .inl (Table.get?_of_mem hin)
    · refine .inr ⟨hnone _ fun hwritten => ?_, homitted pair hin⟩
      exact (List.nodup_append.1 hkeys).2.2 _ hwritten _ (List.mem_map_of_mem hin) rfl
  · intro flag hflag
    refine hnone flag fun hwritten => hflag ?_
    rw [← (hperm.map Prod.fst).mem_iff, List.map_append]
    exact List.mem_append_left _ hwritten

namespace Hold

/-- A pair that may not be omitted is found. -/
theorem get?_eq_some (h : Hold flags given) (hpair : (flag, text) ∈ given)
    (hneeded : (flag, text) ∉ omissible) : flags.get? flag = some text :=
  (h.found _ hpair).resolve_right fun homitted => hneeded homitted.2

/-- A pair that may be omitted says what is assumed without it. -/
theorem getD_get?_eq (h : Hold flags given) (hpair : (flag, text) ∈ given) {default : String}
    (hdefault : (flag, text) ∈ omissible → text = default) : (flags.get? flag).getD default = text := by
  rcases h.found _ hpair with hfound | ⟨hmissing, homitted⟩
  · rw [hfound, Option.getD_some]
  · rw [hmissing, Option.getD_none, hdefault homitted]

end Hold

theorem number_of_none (h : flags.get? flag = none) : number flags flag = .ok none := by
  rw [number, h]

theorem number_of_get? {n : UInt64} (h : flags.get? flag = some text) (hn : WritesHeight n text) :
    number flags flag = .ok (some n) := by
  rw [number, h]
  simp only [readUInt64_of_writes hn]

theorem requiredNumber_of_get? {n : UInt64} {word : String} (h : flags.get? flag = some text)
    (hn : WritesHeight n text) : requiredNumber flags word flag = .ok n := by
  rw [requiredNumber, number_of_get? h hn]
  rfl

/-- **What is found under the flags gives the command.** -/
theorem Hold.commandOf_eq_ok {path : String} (h : Hold flags (("config", path) :: given))
    (hgiven : command.IsGivenBy given) : commandOf flags command.word = .ok command := by
  cases hgiven with
  | watch => rfl
  | @backfill first last batchSize contracts keys firstText lastText sizeTexts keyTexts hfirst hlast
      hsize hcontracts hkeys =>
    have hfrom : flags.get? "from" = some firstText := h.get?_eq_some (by simp) (by simp [omissible])
    have hto : flags.get? "to" = some lastText := h.get?_eq_some (by simp) (by simp [omissible])
    have hcontract : (flags.get? "contract").getD "" = ",".intercalate contracts :=
      h.getD_get?_eq (by simp) (by simp [omissible])
    have hkey : (flags.get? "key").getD "" = ",".intercalate keyTexts :=
      h.getD_get?_eq (by simp) (by simp [omissible])
    have hbatch : number flags "batch-size" = .ok batchSize := by
      cases batchSize with
      | none =>
        cases hsize
        exact number_of_none (h.only _ (by simp))
      | some size =>
        obtain _ | ⟨hsize, hnil⟩ := hsize
        cases hnil
        exact number_of_get? (h.get?_eq_some (by simp) (by simp [omissible])) hsize
    have hparsed : keyTexts.mapM Word.parse = .ok keys :=
      mapM_eq_ok.2 (hkeys.flip.imp fun _ _ => parse_of_writesKey)
    have hlisted := isListed_of_writesKeys hkeys
    change (requiredNumber flags "backfill" "from" >>= fun first =>
      requiredNumber flags "backfill" "to" >>= fun last =>
      number flags "batch-size" >>= fun batchSize =>
      ((list flags "key").mapM Word.parse).mapError CliError.badKey >>= fun keys =>
      pure (Command.backfill first last batchSize (list flags "contract") keys)) = _
    rw [requiredNumber_of_get? hfrom hfirst, requiredNumber_of_get? hto hlast, hbatch, list_eq,
      list_eq, hcontract, hkey, listed_intercalate hcontracts, listed_intercalate hlisted, hparsed]
    rfl
  | @loadValues block blockText hblock =>
    have hfound : flags.get? "block" = some blockText :=
      h.get?_eq_some (by simp) (by simp [omissible])
    change (requiredNumber flags "load-values" "block" >>= fun block =>
      pure (Command.loadValues block)) = _
    rw [requiredNumber_of_get? hfound hblock]
    rfl

/-! ## Every line, and one for every invocation -/

/-- A command is given by known flags, each of them once. -/
theorem known_of_isGivenBy (h : command.IsGivenBy given) (path : String) :
    (∀ pair ∈ ("config", path) :: given, pair.1 ∈ knownFlags) ∧
      ((("config", path) :: given).map Prod.fst).Nodup := by
  cases h with
  | watch => exact ⟨by simp [knownFlags], by simp⟩
  | @backfill _ _ batchSize _ _ _ _ _ _ _ _ hsize _ _ =>
    cases batchSize with
    | none =>
      cases hsize
      exact ⟨by simp [knownFlags], by simp⟩
    | some size =>
      obtain _ | ⟨-, hnil⟩ := hsize
      cases hnil
      exact ⟨by simp [knownFlags], by simp⟩
  | loadValues _ => exact ⟨by simp [knownFlags], by simp⟩

/-- **From a line of an invocation** the invocation is read. -/
theorem parse_of_isWrittenIn {invocation : Invocation} {parts : List Part}
    (h : invocation.IsWrittenIn parts) : parse (arguments parts) = .ok invocation := by
  obtain ⟨config, command⟩ := invocation
  obtain ⟨given, omitted, hgiven, hperm, homitted⟩ := h.pairs
  obtain ⟨hknown, hnodup⟩ := known_of_isGivenBy hgiven config
  have hhold := hold_ofList hperm homitted hnodup
  have hflags : ∀ pair ∈ pairsIn parts, pair.1 ∈ knownFlags := fun pair hpair =>
    hknown pair (hperm.mem_iff.1 (List.mem_append_left _ hpair))
  have hwords : (wordsIn parts).length ≤ 1 := by
    rcases h.word with hword | ⟨-, hword⟩ <;> simp [hword]
  have hword : (wordsIn parts).head?.getD "watch" = command.word := by
    rcases h.word with hword | ⟨hwatch, hword⟩
    · rw [hword]
      rfl
    · change command = .watch at hwatch
      rw [hword, hwatch]
      rfl
  have hconfig : ((Table.ofList (pairsIn parts)).get? "config").getD defaultConfig = config :=
    hhold.getD_get?_eq (by simp) (by simp [omissible])
  have htaken : takeAll (none, Table.empty) parts =
      .ok ((wordsIn parts).head?, Table.ofList (pairsIn parts)) := takeAll_known hflags hwords
  rw [parse_arguments, htaken]
  change (commandOf (Table.ofList (pairsIn parts)) ((wordsIn parts).head?.getD "watch") >>=
    fun command => pure (Invocation.mk (((Table.ofList (pairsIn parts)).get? "config").getD
      defaultConfig) command)) = _
  rw [hword, hhold.commandOf_eq_ok hgiven, hconfig]
  rfl

/-- The pairs of a command with its values in full. -/
def fullPairs : Command → List (String × String)
  | .watch => []
  | .backfill first last batchSize contracts keys =>
    ("from", Decimal.text first.toNat) :: ("to", Decimal.text last.toNat) ::
      ("contract", ",".intercalate contracts) :: ("key", ",".intercalate (keys.map Word.text)) ::
      (batchSize.toList.map fun n => Decimal.text n.toNat).map fun text => ("batch-size", text)
  | .loadValues block => [("block", Decimal.text block.toNat)]

/-- The contracts that a command names. -/
def contractsOf : Command → List String
  | .backfill _ _ _ contracts _ => contracts
  | _ => []

/-- A line of an invocation with its word in front and its values in full. -/
def fullLine (invocation : Invocation) : List Part :=
  .word invocation.command.word invocation.command.plain_word ::
    (("config", invocation.config) :: fullPairs invocation.command).map fun pair => .pair pair.1 pair.2

theorem wordsIn_pairs (pairs : List (String × String)) :
    wordsIn (pairs.map fun pair => .pair pair.1 pair.2) = [] := by
  induction pairs with
  | nil => rfl
  | cons _ _ ih => exact ih

theorem pairsIn_pairs (pairs : List (String × String)) :
    pairsIn (pairs.map fun pair => .pair pair.1 pair.2) = pairs := by
  induction pairs with
  | nil => rfl
  | cons _ _ ih => exact congrArg _ ih

theorem isGivenBy_fullPairs (h : ∀ contract ∈ contractsOf command, IsListed contract) :
    command.IsGivenBy (fullPairs command) := by
  cases command with
  | watch => exact .watch
  | backfill first last batchSize contracts keys =>
    refine .backfill (writesHeight_text first) (writesHeight_text last) ?_ h ?_
    · rw [List.forall₂_map_right_iff]
      exact List.forall₂_same.2 fun n _ => writesHeight_text n
    · rw [List.forall₂_map_right_iff]
      exact List.forall₂_same.2 fun key _ => writesKey_text key
  | loadValues block => exact .loadValues (writesHeight_text block)

theorem isWrittenIn_fullLine {invocation : Invocation}
    (h : ∀ contract ∈ contractsOf invocation.command, IsListed contract) :
    invocation.IsWrittenIn invocation.fullLine where
  word := .inl (congrArg _ (wordsIn_pairs _))
  pairs := ⟨_, [], isGivenBy_fullPairs h,
    List.append_nil _ ▸ .of_eq (pairsIn_pairs (("config", invocation.config) :: _)),
    fun _ hpair => absurd hpair List.not_mem_nil⟩

/-- **What is written is read**: an invocation from each of its lines, with the word before, between or
behind the pairs and the pairs in any order. Every invocation has a line. A pair in front of another one for
its flag changes nothing. -/
theorem written_is_read :
    (∀ (invocation : Invocation) (parts : List Part), invocation.IsWrittenIn parts →
      parse (arguments parts) = .ok invocation) ∧
    (∀ invocation : Invocation, (∀ contract ∈ contractsOf invocation.command, IsListed contract) →
      invocation.IsWrittenIn invocation.fullLine) ∧
    ∀ (front back : List Part) (flag value : String), flag ∈ knownFlags →
      flag ∈ (pairsIn back).map Prod.fst →
      parse (arguments (front ++ .pair flag value :: back)) = parse (arguments (front ++ back)) :=
  ⟨fun _ _ => parse_of_isWrittenIn, fun _ => isWrittenIn_fullLine, fun _ _ _ _ => parse_overridden⟩

/-- A backfill whose configuration and one of whose contracts look like flags. -/
def sampleInvocation : Invocation :=
  ⟨"--from", .backfill 10 20 none ["vat", "--to"] [Word.ofNat 5]⟩

/-- The parts of a line with the word between the pairs. -/
def sampleParts : List Part :=
  [.pair "key" "0x05", .pair "config" "--from", .word "backfill" sampleInvocation.command.plain_word,
    .pair "to" "20", .pair "contract" "vat,--to", .pair "from" "10"]

theorem isListed_sampleContracts : ∀ contract ∈ ["vat", "--to"], IsListed contract := by
  rw [List.forall_mem_cons, List.forall_mem_singleton]
  exact ⟨⟨by decide, by decide, by decide⟩, ⟨by decide, by decide, by decide⟩⟩

theorem isWrittenIn_sampleParts : sampleInvocation.IsWrittenIn sampleParts where
  word := .inl rfl
  pairs := by
    have hfirst : WritesHeight 10 "10" :=
      ⟨[], ['1', '0'], [1, 0], rfl, .inl rfl, by decide, by decide, rfl⟩
    have hlast : WritesHeight 20 "20" :=
      ⟨[], ['2', '0'], [2, 0], rfl, .inl rfl, by decide, by decide, rfl⟩
    have hkey : WritesKey (Word.ofNat 5) "0x05" :=
      ⟨['0', '5'], [0, 5], rfl, by decide, rfl, by decide, rfl⟩
    have hsize : List.Forall₂ WritesHeight (none : Option UInt64).toList [] := .nil
    have hgiven : sampleInvocation.command.IsGivenBy
        [("from", "10"), ("to", "20"), ("contract", "vat,--to"), ("key", "0x05")] :=
      .backfill hfirst hlast hsize isListed_sampleContracts (.cons hkey .nil)
    exact ⟨_, [], hgiven, by decide, fun _ hpair => absurd hpair List.not_mem_nil⟩

/-- The line with the word in the middle, also with a height in front that is overridden. -/
theorem written_is_read_sample :
    let line := ["--key", "0x05", "--config", "--from", "backfill", "--to", "20", "--contract",
      "vat,--to", "--from", "10"]
    arguments sampleParts = line ∧ sampleInvocation.IsWrittenIn sampleParts ∧
      sampleInvocation.IsWrittenIn sampleInvocation.fullLine ∧
      parse line = .ok sampleInvocation ∧ parse ("--from" :: "soon" :: line) = .ok sampleInvocation := by
  intro line
  have hline : arguments sampleParts = line := rfl
  have hfull : sampleInvocation.IsWrittenIn sampleInvocation.fullLine :=
    written_is_read.2.1 sampleInvocation isListed_sampleContracts
  have hread : parse line = .ok sampleInvocation :=
    written_is_read.1 sampleInvocation sampleParts isWrittenIn_sampleParts
  have hagain : parse ("--from" :: "soon" :: line) = parse line :=
    written_is_read.2.2 [] sampleParts "from" "soon" (by decide) (by decide)
  exact ⟨hline, isWrittenIn_sampleParts, hfull, hread, hagain.trans hread⟩

end Invocation

end SlotIndex
