import SlotIndex.Backfill.Messages

/-!
# What a height contributes

The diffs and the errors that a height adds to a backfill, said without the order in which its accounts
and entries are gone through: the diffs of its state diff that are wanted, and the errors of its own.

* `diffsOf`, `errorsOf`: the two kinds of messages.
* `heightDiffs`, `heightErrors`: the contribution of a height.
* `answerEach`: a node that answers height by height.
* `keptEntries_eq_filter`: passing over unwanted accounts hides no wanted entry.
* **`diffsOf_heightMessages`**, **`errorsOf_heightMessages`**.
-/

namespace SlotIndex

/-- The diffs among messages. -/
def diffsOf (ms : List BackfillMessage) : List Diff := ms.filterMap Except.toOption

/-- The error of a result, if it is one. -/
def errorOf? {ε α : Type} : Except ε α → Option ε
  | .ok _ => none
  | .error e => some e

/-- The errors among messages. -/
def errorsOf (ms : List BackfillMessage) : List BackfillError := ms.filterMap errorOf?

/-- Whether a diff is to be kept. Without a selection all are. -/
def keepsDiff (wanted : Option Selection) (x : Diff) : Bool :=
  wanted.all fun s => s.wantsSlot x.account x.key

/-- The diffs that a height contributes, from the result for it. -/
def heightDiffs (wanted : Option Selection) : Except StorageError Payload → List Diff
  | .error _ => []
  | .ok payload =>
    match payload.decode with
    | .error _ => []
    | .ok d => (d.diffs.filterMap Except.toOption).filter (keepsDiff wanted)

/-- The errors that a height contributes, from the result for it. -/
def heightErrors (wanted : Option Selection) (height : UInt64) :
    Except StorageError Payload → List BackfillError
  | .error e => [.fetch height height e]
  | .ok payload =>
    match payload.decode with
    | .error e => [.decode height e]
    | .ok d =>
      (d.entries.filter fun e => keepsEntry wanted e.1 e.2).filterMap fun e =>
        (errorOf? (d.diffOf e.1 e.2)).map (.normalize height)

/-! ## Kept entries -/

theorem wantsAccount_of_wantsSlot {s : Selection} {account key : Word}
    (h : s.wantsSlot account key = true) : s.wantsAccount account = true := by
  rw [Selection.wantsSlot] at h
  rw [Selection.wantsAccount, Table.contains]
  split at h
  · contradiction
  · next hk => rw [hk, Option.isSome_some]

theorem keepsAccount_of_keepsEntry {wanted : Option Selection} {account : AccountDiff}
    {entry : StorageEntry} (h : keepsEntry wanted account entry = true) :
    keepsAccount wanted account = true := by
  cases wanted with
  | none => rfl
  | some s => exact wantsAccount_of_wantsSlot h

/-- The entries that are kept account by account are those that are kept at all. -/
theorem keptEntries_eq_filter (wanted : Option Selection) (d : StateDiff) :
    d.keptEntries wanted = d.entries.filter fun e => keepsEntry wanted e.1 e.2 := by
  rw [StateDiff.keptEntries, StateDiff.entries, List.filter_flatMap]
  induction d.accounts with
  | nil => rfl
  | cons account accounts ih =>
    rw [List.flatMap_cons, ← ih, List.filter_map, List.filter_cons]
    split
    · rfl
    · next hk =>
      have hnone : account.storage.filter (keepsEntry wanted account) = [] :=
        List.filter_eq_nil_iff.2 fun e _ he => hk (keepsAccount_of_keepsEntry he)
      have hcomp : ((fun e => keepsEntry wanted e.1 e.2) ∘ fun entry => (account, entry)) =
          keepsEntry wanted account := rfl
      rw [hcomp, hnone, List.map_nil, List.nil_append]

/-! ## Messages of a height -/

theorem keepsDiff_of_diffOf {wanted : Option Selection} {d : StateDiff} {account : AccountDiff}
    {entry : StorageEntry} {x : Diff} (h : d.diffOf account entry = .ok x) :
    keepsDiff wanted x = keepsEntry wanted account entry := by
  rw [StateDiff.diffOf] at h
  split at h
  · contradiction
  · cases h
    rfl

theorem toOption_mapError {ε δ α : Type} (f : ε → δ) (x : Except ε α) :
    (x.mapError f).toOption = x.toOption := by
  cases x <;> rfl

theorem errorOf?_mapError {ε δ α : Type} (f : ε → δ) (x : Except ε α) :
    errorOf? (x.mapError f) = (errorOf? x).map f := by
  cases x <;> rfl

theorem diffsOf_messagesAt (wanted : Option Selection) (height : UInt64) (d : StateDiff) :
    diffsOf (d.messagesAt wanted height) =
      (d.diffs.filterMap Except.toOption).filter (keepsDiff wanted) := by
  rw [diffsOf, StateDiff.messagesAt, keptEntries_eq_filter, StateDiff.diffs, List.filterMap_map,
    List.filterMap_map, List.filterMap_filter, List.filter_filterMap]
  refine congrArg (List.filterMap · d.entries) (funext fun e => ?_)
  simp only [Function.comp_apply, toOption_mapError]
  cases hx : d.diffOf e.1 e.2 with
  | error _ => simp [Except.toOption]
  | ok x => simp [Except.toOption, ← keepsDiff_of_diffOf hx, Option.filter]

/-- **The diffs among the messages of a height.** -/
theorem diffsOf_heightMessages (wanted : Option Selection) (height : UInt64)
    (result : Except StorageError Payload) :
    diffsOf (heightMessages wanted height result) = heightDiffs wanted result := by
  cases result with
  | error e => rfl
  | ok payload =>
    rw [heightMessages, heightDiffs]
    cases payload.decode with
    | error e => rfl
    | ok d => exact diffsOf_messagesAt wanted height d

/-- **The errors among the messages of a height.** -/
theorem errorsOf_heightMessages (wanted : Option Selection) (height : UInt64)
    (result : Except StorageError Payload) :
    errorsOf (heightMessages wanted height result) = heightErrors wanted height result := by
  cases result with
  | error e => rfl
  | ok payload =>
    rw [heightMessages, heightErrors]
    cases payload.decode with
    | error e => rfl
    | ok d =>
      change errorsOf (d.messagesAt wanted height) = List.filterMap _ _
      rw [errorsOf, StateDiff.messagesAt, keptEntries_eq_filter, List.filterMap_map]
      congr 1
      funext e
      exact errorOf?_mapError (BackfillError.normalize height) (d.diffOf e.1 e.2)

/-! ## Messages of bins -/

/-- What a node answers for a bin if its result for a height depends on nothing but the height. -/
def answerEach (results : UInt64 → Except StorageError Payload) (b : Bin) : Fetched :=
  .ok (b.heights.map results)

theorem resultMessages_map (wanted : Option Selection)
    (results : UInt64 → Except StorageError Payload) (heights : List UInt64) :
    resultMessages wanted heights (heights.map results) =
      heights.flatMap fun h => heightMessages wanted h (results h) := by
  induction heights with
  | nil => rfl
  | cons h heights ih => rw [List.map_cons, resultMessages, ih, List.flatMap_cons]

/-- Bins have the messages of their heights. -/
theorem flatMap_messages (wanted : Option Selection)
    (results : UInt64 → Except StorageError Payload) (bins : List Bin) :
    (bins.flatMap fun b => b.messages wanted (answerEach results b)) =
      (bins.flatMap Bin.heights).flatMap fun h => heightMessages wanted h (results h) := by
  rw [List.flatMap_assoc]
  exact congrArg (List.flatMap · bins) (funext fun b => resultMessages_map wanted results b.heights)

theorem diffsOf_flatMap (wanted : Option Selection)
    (results : UInt64 → Except StorageError Payload) (heights : List UInt64) :
    diffsOf (heights.flatMap fun h => heightMessages wanted h (results h)) =
      heights.flatMap fun h => heightDiffs wanted (results h) := by
  rw [diffsOf, List.filterMap_flatMap]
  exact congrArg (List.flatMap · heights)
    (funext fun h => diffsOf_heightMessages wanted h (results h))

theorem errorsOf_flatMap (wanted : Option Selection)
    (results : UInt64 → Except StorageError Payload) (heights : List UInt64) :
    errorsOf (heights.flatMap fun h => heightMessages wanted h (results h)) =
      heights.flatMap fun h => heightErrors wanted h (results h) := by
  rw [errorsOf, List.filterMap_flatMap]
  exact congrArg (List.flatMap · heights)
    (funext fun h => errorsOf_heightMessages wanted h (results h))

end SlotIndex
