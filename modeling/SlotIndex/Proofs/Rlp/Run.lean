import SlotIndex.Proofs.Rlp.Progress

/-!
# Readings that come to an end

How readers run if nothing bounds the number of items: the items of a list are read one after the other
until its payload is used up. A run is finite, so that there need not be one; it counts the items that it
begins, in lists of all levels, and the one among them that cannot be read. If the items of a list advance,
there is a run from any bytes, it comes to what the reader yields, and it begins no more items than there
are bytes.

* `Run`, `Run.Plain`, `Run.Then`, `Run.Record`, `Run.Loop`, `Run.Listed`, `Run.Exactly`.
* `Realizes`, `RealizesItem`: runs that come to what a reader yields, within the bytes ahead.
* `realizes_plain`, `Realizes.bind`, **`Realizes.record`**, **`RealizesItem.list`**.
* `EndsAs`: a run that comes to an end; `Realizes.endsAs`, `Realizes.exactly`.
* `countItems`, `Run.Listed.count_eq`: if all is read, the items that were begun are those of the result.
-/

namespace SlotIndex.Rlp

variable {α β ε : Type}

/-- The bytes that are left: none behind a fault. -/
def leftover : Except Fault (α × List UInt8) → Nat
  | .error _ => 0
  | .ok (_, rest) => rest.length

/-- What a record comes to, from its header, the bytes behind it and what its fields come to. -/
def closeRecord (h : Header) (rest : List UInt8) :
    Except Fault (α × List UInt8) → Except Fault (α × List UInt8)
  | .error e => .error e
  | .ok (a, behind) =>
    let taken := rest.length - behind.length
    if taken = h.length then .ok (a, behind) else .error (.lengthMismatch h.length taken)

/-- What all the bytes come to, from what a reader comes to. -/
def closeAll : Except Fault (α × List UInt8) → Except Fault α
  | .error e => .error e
  | .ok (a, []) => .ok a
  | .ok (_, _ :: _) => .error .unexpectedLength

/-! ## Runs -/

/-- How a reader runs: from these bytes it comes to this outcome, and so many items of lists have been
begun on the way. -/
abbrev Run (α : Type) := List UInt8 → Except Fault (α × List UInt8) → Nat → Prop

namespace Run

/-- A reader without lists. -/
inductive Plain (read : Reader α) : Run α where
  | intro (input : List UInt8) : Plain read input (read input) 0

/-- One reader after the other. -/
inductive Then (first : Run α) (next : α → Run β) : Run β where
  | fails {input : List UInt8} {e : Fault} {n : Nat} : first input (.error e) n →
      Then first next input (.error e) n
  | goesOn {input rest : List UInt8} {a : α} {outcome : Except Fault (β × List UInt8)} {m n : Nat} :
      first input (.ok (a, rest)) m → next a rest outcome n → Then first next input outcome (m + n)

/-- A record, from the runs of its fields. -/
inductive Record (run : Run α) : Run α where
  | noHeader {input : List UInt8} {e : Fault} : readHeader input = .error e →
      Record run input (.error e) 0
  | noList {input rest : List UInt8} {h : Header} : readHeader input = .ok (h, rest) →
      h.isList = false → Record run input (.error .unexpectedString) 0
  | fields {input rest : List UInt8} {h : Header} {outcome : Except Fault (α × List UInt8)} {n : Nat} :
      readHeader input = .ok (h, rest) → h.isList = true → run rest outcome n →
      Record run input (closeRecord h rest outcome) n

/-- Items one after the other until no byte is left, or until one cannot be read. -/
inductive Loop (item : Run α) : List UInt8 → Except Fault (List α) → Nat → Prop where
  | done : Loop item [] (.ok []) 0
  | fails {input : List UInt8} {e : Fault} {n : Nat} : input ≠ [] → item input (.error e) n →
      Loop item input (.error e) (n + 1)
  | next {input rest : List UInt8} {a : α} {outcome : Except Fault (List α)} {m n : Nat} :
      input ≠ [] → item input (.ok (a, rest)) m → Loop item rest outcome n →
      Loop item input (outcome.map (a :: ·)) (m + 1 + n)

/-- A list, from the runs of its items. -/
inductive Listed (item : Run α) : Run (List α) where
  | noPayload {input : List UInt8} {e : Fault} : readPayload input = .error e →
      Listed item input (.error e) 0
  | items {input payload rest : List UInt8} {outcome : Except Fault (List α)} {n : Nat} :
      readPayload input = .ok (payload, rest) → Loop item payload outcome n →
      Listed item input (outcome.map (·, rest)) n

/-- A value that all the bytes form. -/
inductive Exactly (run : Run α) : List UInt8 → Except Fault α → Nat → Prop where
  | intro {input : List UInt8} {outcome : Except Fault (α × List UInt8)} {n : Nat} :
      run input outcome n → Exactly run input (closeAll outcome) n

end Run

/-! ## Runs that come to what a reader yields -/

/-- The reader takes a front part of the bytes ahead. From any bytes there is a run, every run comes to what the
reader yields, and the items that it begins and the bytes that it leaves are together no more than the bytes
ahead. -/
structure Realizes (run : Run α) (read : Reader α) : Prop where
  isLocal : IsLocal read
  exists_run (input : List UInt8) : ∃ n, run input (read input) n
  eq_read {input : List UInt8} {outcome : Except Fault (α × List UInt8)} {n : Nat} :
    run input outcome n → outcome = read input
  le_length {input : List UInt8} {outcome : Except Fault (α × List UInt8)} {n : Nat} :
    run input outcome n → n + leftover outcome ≤ input.length

/-- The runs of an item of a list: they begin items and leave bytes behind a byte of the item's own. -/
structure RealizesItem (run : Run α) (read : Reader α) : Prop extends Realizes run read where
  advances : Advances read
  lt_length {input : List UInt8} {outcome : Except Fault (α × List UInt8)} {n : Nat} :
    run input outcome n → input ≠ [] → n + leftover outcome < input.length

variable {read : Reader α} {run : Run α}

theorem realizes_plain (h : IsLocal read) : Realizes (.Plain read) read where
  isLocal := h
  exists_run input := ⟨0, .intro input⟩
  eq_read := by
    rintro input _ _ ⟨⟩
    rfl
  le_length := by
    rintro input _ _ ⟨⟩
    rw [Nat.zero_add]
    cases hread : read input with
    | error e => exact Nat.zero_le _
    | ok r => exact h.length_le hread

theorem Realizes.bind {f : α × List UInt8 → Except Fault (β × List UInt8)} {next : α → Run β}
    (h : Realizes run read) (hnext : ∀ a, Realizes (next a) fun rest => f (a, rest)) :
    Realizes (.Then run next) fun input => read input >>= f where
  isLocal := h.isLocal.bind fun a => (hnext a).isLocal
  exists_run input := by
    obtain ⟨m, hm⟩ := h.exists_run input
    cases hread : read input with
    | error e => exact ⟨m, .fails (hread ▸ hm)⟩
    | ok r =>
      obtain ⟨n, hn⟩ := (hnext r.1).exists_run r.2
      exact ⟨m + n, .goesOn (hread ▸ hm) hn⟩
  eq_read := by
    rintro input outcome n (hfails | ⟨hfirst, hrest⟩)
    · simp only [← h.eq_read hfails]
      rfl
    · simp only [← h.eq_read hfirst]
      exact (hnext _).eq_read hrest
  le_length := by
    rintro input outcome n (hfails | ⟨hfirst, hrest⟩)
    · exact h.le_length hfails
    · have hfirst := h.le_length hfirst
      have hrest := (hnext _).le_length hrest
      simp only [leftover] at hfirst
      omega

/-! ## Records -/

theorem readRecord_of_list {input rest : List UInt8} {h : Header} (hheader : readHeader input = .ok (h, rest))
    (hlist : h.isList = true) : readRecord read input = closeRecord h rest (read rest) := by
  rw [readRecord, hheader]
  simp only [if_pos hlist]
  cases read rest <;> rfl

theorem leftover_closeRecord_le (h : Header) (rest : List UInt8)
    (outcome : Except Fault (α × List UInt8)) :
    leftover (closeRecord h rest outcome) ≤ leftover outcome := by
  cases outcome with
  | error e => exact Nat.le_refl _
  | ok r =>
    simp only [closeRecord]
    split
    · exact Nat.le_refl _
    · exact Nat.zero_le _

theorem length_lt_of_list {input rest : List UInt8} {h : Header} (hheader : readHeader input = .ok (h, rest))
    (hlist : h.isList = true) : rest.length < input.length := by
  obtain ⟨isList, n⟩ := h
  obtain rfl : isList = true := hlist
  obtain ⟨-, -, rfl⟩ := eq_of_readHeader_list hheader
  rw [List.length_append]
  exact Nat.lt_add_of_pos_left (List.length_pos_iff.2 (writeHeader_ne_nil true n))

/-- A record begins items and leaves bytes behind its header, or it does neither. -/
theorem Realizes.record_length (h : Realizes run read) {input : List UInt8}
    {outcome : Except Fault (α × List UInt8)} {n : Nat} (hrun : Run.Record run input outcome n) :
    n + leftover outcome < input.length ∨ n + leftover outcome = 0 := by
  cases hrun with
  | noHeader | noList => exact .inr rfl
  | @fields _ rest hd outcome _ hheader hlist hfields =>
    have hle := h.le_length hfields
    have hclose := leftover_closeRecord_le hd rest outcome
    have hlt := length_lt_of_list hheader hlist
    exact .inl (by omega)

/-- **Records.** Their header leaves room for the record itself. -/
theorem Realizes.record (h : Realizes run read) : RealizesItem (.Record run) (readRecord read) where
  isLocal := h.isLocal.record.isLocal
  advances := h.isLocal.record
  exists_run input := by
    cases hheader : readHeader input with
    | error e =>
      refine ⟨0, ?_⟩
      rw [readRecord, hheader]
      exact .noHeader hheader
    | ok r =>
      cases hlist : r.1.isList with
      | false =>
        refine ⟨0, ?_⟩
        rw [readRecord, hheader]
        simp only [hlist]
        exact .noList hheader hlist
      | true =>
        obtain ⟨n, hn⟩ := h.exists_run r.2
        refine ⟨n, ?_⟩
        rw [readRecord_of_list hheader hlist]
        exact .fields hheader hlist hn
  eq_read := by
    rintro input outcome n (hheader | ⟨hheader, hlist⟩ | ⟨hheader, hlist, hfields⟩)
    · rw [readRecord, hheader]
    · rw [readRecord, hheader]
      simp [hlist]
    · rw [readRecord_of_list hheader hlist, ← h.eq_read hfields]
  le_length hrun := by
    have hlength := h.record_length hrun
    omega
  lt_length hrun hne := by
    have hlength := h.record_length hrun
    have hpos := List.length_pos_iff.2 hne
    omega

/-! ## Lists -/

section Lists

variable {item : Run α} (h : RealizesItem item read)

include h

theorem RealizesItem.eq_readItems {input : List UInt8} {outcome : Except Fault (List α)} {n : Nat}
    (hloop : Run.Loop item input outcome n) : outcome = readItems read input.length input := by
  induction hloop with
  | done => rfl
  | fails hne hitem => exact (readItems_of_error hne (h.eq_read hitem).symm).symm
  | next hne hitem _ ih => rw [ih, h.advances.readItems_of_ok hne (h.eq_read hitem).symm]

/-- **A loop ends**: each item leaves fewer bytes than there were. -/
theorem RealizesItem.exists_loop (input : List UInt8) :
    ∃ n, Run.Loop item input (readItems read input.length input) n := by
  -- An item leaves fewer bytes, but not one fewer, so that the induction is on a bound of their number.
  obtain ⟨bound, hbound⟩ : ∃ bound, input.length ≤ bound := ⟨_, Nat.le_refl _⟩
  induction bound generalizing input with
  | zero =>
    obtain rfl := List.length_eq_zero_iff.1 (Nat.le_zero.1 hbound)
    exact ⟨0, .done⟩
  | succ bound ih =>
    by_cases hne : input = []
    · exact ⟨0, hne ▸ .done⟩
    · obtain ⟨m, hm⟩ := h.exists_run input
      cases hread : read input with
      | error e =>
        rw [readItems_of_error hne hread]
        exact ⟨m + 1, .fails hne (hread ▸ hm)⟩
      | ok r =>
        have hlt := h.advances.length_lt hread
        obtain ⟨n, hn⟩ := ih r.2 (by omega)
        rw [h.advances.readItems_of_ok hne hread]
        exact ⟨m + 1 + n, .next hne (hread ▸ hm) hn⟩

theorem RealizesItem.loop_le_length {input : List UInt8} {outcome : Except Fault (List α)} {n : Nat}
    (hloop : Run.Loop item input outcome n) : n ≤ input.length := by
  induction hloop with
  | done => exact Nat.le_refl _
  | fails hne hitem => exact h.lt_length hitem hne
  | next hne hitem _ ih =>
    have hlt := h.lt_length hitem hne
    simp only [leftover] at hlt
    omega

/-- **Lists.** Their items begin within the payload, and what is left is behind it. -/
theorem RealizesItem.list : Realizes (.Listed item) (readList read) where
  isLocal := (advances_list read).isLocal
  exists_run input := by
    rw [readList]
    cases hpayload : readPayload input with
    | error e => exact ⟨0, .noPayload hpayload⟩
    | ok r =>
      obtain ⟨n, hn⟩ := h.exists_loop r.1
      refine ⟨n, ?_⟩
      have hrun := Run.Listed.items hpayload hn
      simp only
      cases hitems : readItems read r.1.length r.1 <;> rw [hitems] at hrun <;> exact hrun
  eq_read := by
    rintro input outcome n (hpayload | ⟨hpayload, hloop⟩)
    · rw [readList, hpayload]
    · rw [readList, hpayload, h.eq_readItems hloop]
      simp only
      cases readItems read _ _ <;> rfl
  le_length := by
    rintro input outcome n (hpayload | ⟨hpayload, hloop⟩)
    · exact Nat.zero_le _
    · next payload rest outcome =>
      have hle := h.loop_le_length hloop
      have hleft : leftover (outcome.map (·, rest)) ≤ rest.length := by
        cases outcome with
        | error e => exact Nat.zero_le _
        | ok as => exact Nat.le_refl _
      have hlength := length_le_writeList payload
      rw [(eq_of_readPayload hpayload).2, List.length_append]
      omega

end Lists

/-! ## Ends -/

/-- From these bytes a run comes to an end: there is one, and every one has this result and begins no more
items than there are bytes. -/
structure EndsAs (run : List UInt8 → ε → Nat → Prop) (input : List UInt8) (result : ε) : Prop where
  exists_run : ∃ n, run input result n
  eq_result {result' : ε} {n : Nat} : run input result' n → result' = result
  le_length {result' : ε} {n : Nat} : run input result' n → n ≤ input.length

theorem Realizes.endsAs (h : Realizes run read) (input : List UInt8) : EndsAs run input (read input) where
  exists_run := h.exists_run input
  eq_result := h.eq_read
  le_length hrun := Nat.le_trans (Nat.le_add_right _ _) (h.le_length hrun)

theorem readExactly_eq (read : Reader α) (input : List UInt8) :
    readExactly read input = closeAll (read input) := by
  unfold readExactly closeAll
  rcases read input with e | ⟨a, _ | ⟨b, rest⟩⟩ <;> rfl

/-- **Values that all the bytes form.** -/
theorem Realizes.exactly (h : Realizes run read) (input : List UInt8) :
    EndsAs (Run.Exactly run) input (readExactly read input) where
  exists_run := by
    obtain ⟨n, hn⟩ := h.exists_run input
    exact ⟨n, readExactly_eq read input ▸ .intro hn⟩
  eq_result := by
    rintro _ n ⟨hrun⟩
    rw [readExactly_eq, h.eq_read hrun]
  le_length := by
    rintro _ n ⟨hrun⟩
    exact (h.endsAs input).le_length hrun

/-! ## What is counted -/

/-- The items of a list, and those that are in each of them. -/
def countItems (items : α → Nat) : List α → Nat
  | [] => 0
  | a :: as => items a + 1 + countItems items as

theorem countItems_zero (as : List α) : countItems (fun _ => 0) as = as.length := by
  induction as with
  | nil => rfl
  | cons a as ih =>
    rw [countItems, ih, List.length_cons]
    omega

theorem countItems_length (f : α → List β) (as : List α) :
    countItems (fun a => (f a).length) as = as.length + (as.flatMap f).length := by
  induction as with
  | nil => rfl
  | cons a as ih =>
    rw [countItems, ih, List.flatMap_cons, List.length_append, List.length_cons]
    omega

namespace Run

theorem Plain.eq_read {input : List UInt8} {outcome : Except Fault (α × List UInt8)} {n : Nat}
    (h : Plain read input outcome n) : outcome = read input ∧ n = 0 := by
  cases h
  exact ⟨rfl, rfl⟩

theorem Then.exists_of_ok {next : α → Run β} {input rest : List UInt8} {b : β} {n : Nat}
    (h : Then run next input (.ok (b, rest)) n) : ∃ a middle m k,
      run input (.ok (a, middle)) m ∧ next a middle (.ok (b, rest)) k ∧ n = m + k := by
  cases h with
  | goesOn hfirst hrest => exact ⟨_, _, _, _, hfirst, hrest, rfl⟩

theorem Record.exists_of_ok {input behind : List UInt8} {a : α} {n : Nat}
    (h : Record run input (.ok (a, behind)) n) : ∃ rest, run rest (.ok (a, behind)) n := by
  generalize houtcome : Except.ok (a, behind) = closed at h
  rw [← houtcome]
  cases h with
  | noHeader | noList => contradiction
  | @fields _ rest hd outcome _ _ _ hfields =>
    rcases outcome with e | ⟨a', behind'⟩
    · contradiction
    · simp only [closeRecord] at houtcome
      split at houtcome
      · obtain ⟨rfl, rfl⟩ := Prod.mk.inj (Except.ok.inj houtcome)
        exact ⟨rest, hfields⟩
      · contradiction

theorem Exactly.of_ok {input : List UInt8} {a : α} {n : Nat} (h : Exactly run input (.ok a) n) :
    run input (.ok (a, [])) n := by
  generalize houtcome : Except.ok a = closed at h
  cases h with
  | @intro outcome _ hrun =>
    rcases outcome with e | ⟨b, _ | ⟨c, rest⟩⟩
    · contradiction
    · cases houtcome
      exact hrun
    · contradiction

variable {item : Run α} {items : α → Nat}
  (hitem : ∀ {input a rest n}, item input (.ok (a, rest)) n → n = items a)

include hitem

/-- **The items that a loop begins**, if it reads them all, are those of its result and those that were
begun in each of them. -/
theorem Loop.count_eq {input : List UInt8} {as : List α} {n : Nat} (h : Loop item input (.ok as) n) :
    n = countItems items as := by
  generalize houtcome : Except.ok as = outcome at h
  induction h generalizing as with
  | done =>
    cases houtcome
    rfl
  | fails => contradiction
  | @next _ _ a outcome m n _ hfirst _ ih =>
    cases outcome with
    | error e => contradiction
    | ok as' =>
      cases houtcome
      rw [countItems, ← hitem hfirst, ← ih rfl]

theorem Listed.count_eq {input rest : List UInt8} {as : List α} {n : Nat}
    (h : Listed item input (.ok (as, rest)) n) : n = countItems items as := by
  generalize houtcome : Except.ok (as, rest) = outcome at h
  cases h with
  | noPayload => contradiction
  | @items _ _ _ outcome _ _ hloop =>
    cases outcome with
    | error e => contradiction
    | ok as' =>
      cases houtcome
      exact hloop.count_eq hitem

end Run

end SlotIndex.Rlp
