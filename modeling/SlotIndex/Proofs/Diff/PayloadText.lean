import SlotIndex.Diff.Payload
import SlotIndex.Proofs.Json.RoundTrip
import SlotIndex.Proofs.Text.Hex

/-!
# The text of a payload

A payload is written as a JSON object with its two binary forms in hexadecimal, and is read back from it. It
is read from any other object that holds the two fields, too, wherever they stand and whatever else is in it;
a block that is missing is empty.

* `IsField`, **`record?_eq_some`**: the fields of a record in an object.
* `WritesBytes`, `bytes?_of_writesBytes`, `quote_prefixed`: bytes as hexadecimal text.
* `Payload.IsHeldBy`, **`Payload.ofJson?_of_isHeldBy`**: what is read from an object that holds a payload.
* `Payload.render_toJson`: the text of a payload.
* **`Payload.text_is_read_back`**.
-/

namespace SlotIndex

namespace Json

variable {members : List (String × Json)}

/-- What an object holds under a name: nothing, or one value. -/
inductive IsField (members : List (String × Json)) (name : String) : Option Json → Prop where
  | missing (h : members.filter (fun m => m.1 = name) = []) : IsField members name none
  | once {j : Json} (h : members.filter (fun m => m.1 = name) = [(name, j)]) :
      IsField members name (some j)

/-- **The fields of a record** are found in an object that holds each of them at most once. -/
theorem record?_eq_some {names : List String} {fields : List (Option Json)}
    (h : List.Forall₂ (IsField members) names fields) :
    record? names (ofMembers members) = some fields := by
  have hsound : (members.map fun m => (some m.1, m.2)).all (fun m => m.1.isSome) = true := by
    rw [List.all_eq_true, List.forall_mem_map]
    exact fun _ _ => rfl
  have hfilter (name : String) :
      (members.map fun m => (some m.1, m.2)).filter (fun m => m.1 = some name) =
        (members.filter fun m => m.1 = name).map fun m => (some m.1, m.2) := by
    rw [List.filter_map]
    simp [Function.comp_def]
  rw [ofMembers, record?, if_pos hsound]
  induction h with
  | nil => rfl
  | cons hfield _ ih =>
    rw [List.mapM_cons, ih, hfilter]
    cases hfield with
    | missing hnone => simp [hnone]
    | once hone => simp [hone]

/-- A string that writes bytes: two digits for each of them, behind a mark or none. -/
def WritesBytes (bytes : List UInt8) (j : Json) : Prop :=
  ∃ text values, j = ofString text ∧ Hex.Digits (Hex.unmarked text.toList) values ∧
    2 * bytes.length = (Hex.unmarked text.toList).length ∧ BigEndian.toNat bytes = Hex.number values

theorem bytes?_of_writesBytes {bytes : List UInt8} {j : Json} (h : WritesBytes bytes j) :
    bytes? j = some bytes := by
  obtain ⟨text, values, rfl, hread⟩ := h
  have hdecode : Hex.decode text.toList = .ok bytes := Hex.decode_eq_ok_iff.2 ⟨values, hread⟩
  rw [ofString, bytes?, Option.bind_some, hdecode]
  rfl

theorem writesBytes_prefixed (bytes : List UInt8) : WritesBytes bytes (ofString (Hex.prefixed bytes)) := by
  refine ⟨_, Hex.nibbles bytes, rfl, ?_⟩
  rw [Hex.prefixed, String.toList_ofList]
  exact ⟨Hex.digits_encode bytes, (Hex.length_encode_bytes bytes).symm, (Hex.number_nibbles bytes).symm⟩

/-- Digits stand in a string as they are. -/
theorem escape_of_isDigit {c : Char} {n : Nat} (h : Hex.IsDigit c n) : escape c = [c] :=
  Hex.IsDigit.of_codes (P := fun c => escape c = [c]) (by decide) h

theorem flatMap_escape_digits {text : List Char} {values : List Nat} (h : Hex.Digits text values) :
    text.flatMap escape = text := by
  induction h with
  | nil => rfl
  | cons hc _ ih => rw [List.flatMap_cons, escape_of_isDigit hc, ih, List.singleton_append]

/-- The text of bytes between quotes. -/
theorem quote_prefixed (bytes : List UInt8) :
    quote (Hex.prefixed bytes) = '"' :: ((Hex.prefixed bytes).toList ++ ['"']) := by
  have hmark : escape '0' ++ escape 'x' = ['0', 'x'] := rfl
  rw [quote, Hex.prefixed, String.toList_ofList, List.flatMap_cons, List.flatMap_cons, ← List.append_assoc,
    hmark, flatMap_escape_digits (Hex.digits_encode bytes)]
  rfl

end Json

namespace Payload

open Json

/-- An object holds a payload: its state diff under one name and its block under another one, which is
missing only if the block is empty. -/
structure IsHeldBy (p : Payload) (members : List (String × Json)) : Prop where
  stateDiff : ∃ j, IsField members "stateDiffRlp" (some j) ∧ WritesBytes p.stateDiff j
  block : (∃ j, IsField members "blockRlp" (some j) ∧ WritesBytes p.block j) ∨
    p.block = [] ∧ IsField members "blockRlp" none

variable {p : Payload} {members : List (String × Json)}

/-- **A payload is read from an object that holds it**, whatever else is in it. -/
theorem ofJson?_of_isHeldBy (h : p.IsHeldBy members) : ofJson? (ofMembers members) = some p := by
  obtain ⟨j, hfield, hwritten⟩ := h.stateDiff
  have hstate : required? bytes? (some j) = some p.stateDiff := bytes?_of_writesBytes hwritten
  have hread (block : Option Json) (hblock : IsField members "blockRlp" block)
      (hbytes : orElse? [] bytes? block = some p.block) : ofJson? (ofMembers members) = some p := by
    have hrecord : record? ["blockRlp", "stateDiffRlp"] (ofMembers members) = some [block, some j] :=
      record?_eq_some (.cons hblock (.cons hfield .nil))
    simp [ofJson?, hrecord, hbytes, hstate]
  rcases h.block with ⟨block, hblock, hwritten⟩ | ⟨hempty, hblock⟩
  · exact hread _ hblock (bytes?_of_writesBytes hwritten)
  · exact hread _ hblock (congrArg some hempty.symm)

theorem parse_of_isHeldBy (h : p.IsHeldBy members) {text : String}
    (htext : Json.parse text = some (ofMembers members)) : parse text = some p := by
  rw [parse, htext, Option.bind_some, ofJson?_of_isHeldBy h]

/-- The fields in which a payload is written. -/
def fields (p : Payload) : List (String × Json) :=
  [("blockRlp", ofString (Hex.prefixed p.block)), ("stateDiffRlp", ofString (Hex.prefixed p.stateDiff))]

theorem isHeldBy_fields (p : Payload) : p.IsHeldBy p.fields where
  stateDiff := ⟨_, .once (by simp [fields]), writesBytes_prefixed _⟩
  block := .inl ⟨_, .once (by simp [fields]), writesBytes_prefixed _⟩

theorem isWritable_fields (p : Payload) : ∀ m ∈ p.fields, m.2.IsWritable := by
  rw [fields, List.forall_mem_cons, List.forall_mem_singleton]
  exact ⟨.string _, .string _⟩

/-- **The text of a payload**: two members, each the digits of bytes after a mark. -/
theorem render_toJson (p : Payload) :
    p.toJson.render = "\x7b\"blockRlp\":\"" ++ Hex.prefixed p.block ++ "\",\"stateDiffRlp\":\"" ++
      Hex.prefixed p.stateDiff ++ "\"\x7d" := by
  have hchars : p.toJson.chars = '{' :: (quote "blockRlp" ++ ':' :: (quote (Hex.prefixed p.block) ++
      ',' :: (quote "stateDiffRlp" ++ ':' :: (quote (Hex.prefixed p.stateDiff) ++ ['}'])))) := by
    simp [toJson, ofMembers, ofString, chars, memberTexts, separate]
  rw [← String.toList_inj, render, String.toList_ofList, hchars, quote_prefixed, quote_prefixed]
  simp [quote, escape]

/-- **The text of a payload is read back**, and so is every other text of an object that holds it: with the
fields in any order, with other members between them and without a block that is empty. -/
theorem text_is_read_back :
    (∀ p : Payload, parse p.toJson.render = some p ∧
      p.toJson.render = "\x7b\"blockRlp\":\"" ++ Hex.prefixed p.block ++ "\",\"stateDiffRlp\":\"" ++
        Hex.prefixed p.stateDiff ++ "\"\x7d") ∧
    ∀ (p : Payload) (members : List (String × Json)), p.IsHeldBy members →
      (∀ text, Json.parse text = some (ofMembers members) → parse text = some p) ∧
      ((∀ m ∈ members, m.2.IsWritable) → parse (ofMembers members).render = some p) := by
  refine ⟨fun p => ⟨?_, render_toJson p⟩, fun p members h => ⟨fun _ => parse_of_isHeldBy h, fun hall => ?_⟩⟩
  · exact parse_of_isHeldBy (isHeldBy_fields p) (parse_render (.object (isWritable_fields p)))
  · exact parse_of_isHeldBy h (parse_render (.object hall))

/-- Members of a payload with a short state diff, behind a member of another name. -/
def sampleMembers : List (String × Json) :=
  [("height", .number "7"), ("stateDiffRlp", ofString "0xC0fF")]

/-- A text with gaps, with an escape in a name and without a block. -/
theorem text_is_read_back_sample :
    let p : Payload := { stateDiff := [0xC0, 0xFF] }
    p.IsHeldBy sampleMembers ∧ (∀ m ∈ sampleMembers, m.2.IsWritable) ∧
      parse (ofMembers sampleMembers).render = some p ∧
      parse "\x7b \"height\": 7,\n\"stateDiff\\u0052lp\" :\"0xC0fF\"\x7d" = some p := by
  intro p
  have hheld : p.IsHeldBy sampleMembers := {
    stateDiff := ⟨_, .once (by simp [sampleMembers]), "0xC0fF", [12, 0, 15, 15], rfl, by decide, rfl, rfl⟩
    block := .inr ⟨rfl, .missing (by simp [sampleMembers])⟩ }
  have hdigits : AreDigits ['7'] := ⟨List.cons_ne_nil _ _, List.forall_mem_singleton.2 rfl⟩
  have hnumber : IsNumber "7".toList :=
    ⟨[], ['7'], [], [], rfl, .inl rfl, .inr ⟨hdigits, by decide⟩, .inl rfl, .inl rfl⟩
  have hall : ∀ m ∈ sampleMembers, m.2.IsWritable := by
    rw [sampleMembers, List.forall_mem_cons, List.forall_mem_singleton]
    exact ⟨.number hnumber, .string _⟩
  -- With the number of steps left open the reader is unfolded no further than the text needs.
  have hvalue (steps : Nat) : valueAt (steps + 3)
      ['{', ' ', '"', 'h', 'e', 'i', 'g', 'h', 't', '"', ':', ' ', '7', ',', '\n', '"', 's', 't', 'a', 't',
        'e', 'D', 'i', 'f', 'f', '\\', 'u', '0', '0', '5', '2', 'l', 'p', '"', ' ', ':', '"', '0', 'x',
        'C', '0', 'f', 'F', '"', '}'] = some (ofMembers sampleMembers, []) := rfl
  obtain ⟨hread, hrender⟩ := text_is_read_back.2 p sampleMembers hheld
  exact ⟨hheld, hall, hrender hall, hread _ (parse_of_valueAt (hvalue 43))⟩

end Payload

end SlotIndex
