import SlotIndex.Proofs.Diff.RoundTrip
import SlotIndex.Proofs.Rlp.Truncation

/-!
# Payloads that are cut off or go on

The binary form of a state diff says where it ends. Neither a front part of it is accepted, nor bytes that
go on behind its end, so that a payload that has been damaged in this way never passes for another state
diff. The form is one that can be written at all: its header holds lengths below `2 ^ 64`.

* `StateDiff.decode_cut`, `StateDiff.decode_append`.
* **`Payload.decode_delimited`**: the same for payloads.
-/

namespace SlotIndex

namespace StateDiff

variable {d : StateDiff} (h : d.encode.length < UInt64.size)

include h

theorem decode_cut {cut : List UInt8} (hcut : cut <+: d.encode) (hne : cut ≠ d.encode) :
    decode cut = .error .inputTooShort :=
  Rlp.readExactly_record_cut readFields h hcut hne

theorem decode_append {more : List UInt8} (hmore : more ≠ []) :
    decode (d.encode ++ more) = .error .unexpectedLength :=
  Rlp.readExactly_append codec h hmore

end StateDiff

namespace Payload

theorem decode_eq_error {p : Payload} {fault : Rlp.Fault}
    (h : StateDiff.decode p.stateDiff = .error fault) : p.decode = .error (.rlp fault) := by
  rw [decode, h]
  rfl

/-- **A state diff is delimited by its own bytes.** Cut off anywhere, the front of its binary form is too
short, the empty one included; with anything behind it, it is too long. Bytes that begin as the form
does, or go on behind it, are accepted only if they are the form itself, and then as this state diff. -/
theorem decode_delimited (block : List UInt8) (d : StateDiff) (h : d.encode.length < UInt64.size) :
    (∀ cut, cut <+: d.encode → cut ≠ d.encode →
      Payload.decode ⟨block, cut⟩ = .error (.rlp .inputTooShort)) ∧
    (∀ more, more ≠ [] →
      Payload.decode ⟨block, d.encode ++ more⟩ = .error (.rlp .unexpectedLength)) ∧
    ∀ bytes e, (bytes <+: d.encode ∨ d.encode <+: bytes) → Payload.decode ⟨block, bytes⟩ = .ok e →
      bytes = d.encode ∧ e = d := by
  have hcut : ∀ cut, cut <+: d.encode → cut ≠ d.encode →
      Payload.decode ⟨block, cut⟩ = .error (.rlp .inputTooShort) :=
    fun cut hprefix hne => decode_eq_error (StateDiff.decode_cut h hprefix hne)
  have hmore : ∀ more, more ≠ [] →
      Payload.decode ⟨block, d.encode ++ more⟩ = .error (.rlp .unexpectedLength) :=
    fun more hne => decode_eq_error (StateDiff.decode_append h hne)
  refine ⟨hcut, hmore, fun bytes e hside hok => ?_⟩
  by_cases hbytes : bytes = d.encode
  · have hd : Payload.decode ⟨block, d.encode⟩ = .ok d :=
      decode_eq_ok.2 (Rlp.readExactly_write StateDiff.codec h)
    rw [hbytes, hd] at hok
    exact ⟨hbytes, (Except.ok.inj hok).symm⟩
  · rcases hside with hprefix | ⟨more, rfl⟩
    · rw [hcut bytes hprefix hbytes] at hok
      cases hok
    · have hne : more ≠ [] := fun hnil => hbytes (by rw [hnil, List.append_nil])
      rw [hmore more hne] at hok
      cases hok

/-- A state diff whose header has a length of its own, cut off inside that length and inside the hash of
the block, and with a byte behind it that could be the form of an empty list. -/
theorem decode_delimited_sample : sampleDiff.encode.length < UInt64.size ∧
    Payload.decode ⟨[], sampleDiff.encode.take 1⟩ = .error (.rlp .inputTooShort) ∧
    Payload.decode ⟨[], sampleDiff.encode.take 20⟩ = .error (.rlp .inputTooShort) ∧
    Payload.decode ⟨[], sampleDiff.encode ++ [0xC0]⟩ = .error (.rlp .unexpectedLength) := by
  have h : sampleDiff.encode.length < UInt64.size := by decide +kernel
  have hne : ∀ n < 30, sampleDiff.encode.take n ≠ sampleDiff.encode := by decide +kernel
  obtain ⟨hcut, hmore, -⟩ := decode_delimited [] sampleDiff h
  exact ⟨h, hcut _ (List.take_prefix 1 _) (hne 1 (by decide)),
    hcut _ (List.take_prefix 20 _) (hne 20 (by decide)), hmore [0xC0] (by decide)⟩

end Payload

end SlotIndex
