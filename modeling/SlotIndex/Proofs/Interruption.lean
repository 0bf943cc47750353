import Mathlib.Data.List.Basic
import SlotIndex.Backfill.Handover
import SlotIndex.Feed.Subscription
import SlotIndex.Proofs.Backfill.Sequence

/-!
# Stopping early

A stage that is stopped, by a cancellation or because nobody receives any more, has sent the same
messages as a stage that is not, up to some point, and sends nothing behind the first message that could
not be delivered.

* `Outlet.recording`: every attempt to send is recorded; `delivered`.
* `Attempts`: attempts to send messages in their order, up to the first that fails.
* `sendHeights_eq`, `sendPayload_eq`: the loops send the messages of a bin and of a payload.
* `process_eq`, `runSubscription_eq`: the loops and the runs that only say what is delivered.
* **`stopping_early_truncates`**.
-/

namespace SlotIndex

variable {σ α : Type}

/-! ## Sending in turn -/

namespace Outlet

variable (o : Outlet σ α)

theorem sendAll_singleton (m : α) (world : σ) : o.sendAll [m] world = o.send m world := by
  rw [sendAll]
  rcases o.send m world with ⟨_ | _, world⟩ <;> rfl

theorem sendAll_append (ms ns : List α) (world : σ) :
    o.sendAll (ms ++ ns) world =
      match o.sendAll ms world with
      | (false, world) => (false, world)
      | (true, world) => o.sendAll ns world := by
  induction ms generalizing world with
  | nil => rfl
  | cons m ms ih =>
    rw [List.cons_append, sendAll, sendAll]
    rcases o.send m world with ⟨_ | _, world⟩
    · rfl
    · exact ih world

end Outlet

section Loops

variable (o : Outlet σ BackfillMessage) (wanted : Option Selection)

/-- The messages of some storage entries of an account. -/
def entryMessages (height : UInt64) (d : StateDiff) (account : AccountDiff) (entries : List StorageEntry) :
    List BackfillMessage :=
  (entries.filter (keepsEntry wanted account)).map fun entry =>
    (d.diffOf account entry).mapError (.normalize height)

theorem sendEntries_eq (height : UInt64) (d : StateDiff) (account : AccountDiff)
    (entries : List StorageEntry) (world : σ) :
    sendEntries o wanted height d account entries world =
      o.sendAll (entryMessages wanted height d account entries) world := by
  induction entries generalizing world with
  | nil => rfl
  | cons entry entries ih =>
    rw [sendEntries, entryMessages]
    split
    · next h =>
      rw [List.filter_cons_of_pos h, List.map_cons, Outlet.sendAll]
      rcases o.send _ world with ⟨_ | _, world⟩
      · rfl
      · exact ih world
    · next h =>
      rw [List.filter_cons_of_neg h]
      exact ih world

theorem sendAccounts_eq (height : UInt64) (d : StateDiff) (accounts : List AccountDiff) (world : σ) :
    sendAccounts o wanted height d accounts world =
      o.sendAll ((accounts.filter (keepsAccount wanted)).flatMap fun account =>
        entryMessages wanted height d account account.storage) world := by
  induction accounts generalizing world with
  | nil => rfl
  | cons account accounts ih =>
    rw [sendAccounts]
    split
    · next h =>
      rw [List.filter_cons_of_pos h, List.flatMap_cons, Outlet.sendAll_append, sendEntries_eq]
      rcases o.sendAll (entryMessages wanted height d account account.storage) world with ⟨_ | _, world⟩
      · rfl
      · exact ih world
    · next h =>
      rw [List.filter_cons_of_neg h]
      exact ih world

theorem messagesAt_eq (height : UInt64) (d : StateDiff) :
    d.messagesAt wanted height = (d.accounts.filter (keepsAccount wanted)).flatMap fun account =>
      entryMessages wanted height d account account.storage := by
  simp only [StateDiff.messagesAt, StateDiff.keptEntries, List.map_flatMap, List.map_map, entryMessages]
  rfl

theorem sendHeight_eq (height : UInt64) (result : Except StorageError Payload) (world : σ) :
    sendHeight o wanted height result world = o.sendAll (heightMessages wanted height result) world := by
  cases result with
  | error e => exact (o.sendAll_singleton _ world).symm
  | ok payload =>
    rw [sendHeight, heightMessages]
    cases payload.decode with
    | error e => exact (o.sendAll_singleton _ world).symm
    | ok d =>
      simp only
      rw [sendAccounts_eq, messagesAt_eq]

theorem sendHeights_eq (heights : List UInt64) (results : List (Except StorageError Payload)) (world : σ) :
    sendHeights o wanted heights results world =
      o.sendAll (resultMessages wanted heights results) world := by
  induction heights generalizing results world with
  | nil => rfl
  | cons height heights ih =>
    have hmessages : resultMessages wanted (height :: heights) results =
        heightMessages wanted height (results.head?.getD (missingResult height)) ++
          resultMessages wanted heights results.tail := by
      cases results <;> rfl
    rw [sendHeights, hmessages, Outlet.sendAll_append, sendHeight_eq]
    rcases o.sendAll (heightMessages wanted height (results.head?.getD (missingResult height))) world with
      ⟨_ | _, world⟩
    · rfl
    · exact ih results.tail world

/-- A bin that is not cancelled sends its messages one after the other. -/
theorem Bin.handOver_eq (b : Bin) (fetched : Fetched) (world : σ) :
    b.handOver o wanted fetched world =
      match o.cancelled world with
      | (true, world) => (false, world)
      | (false, world) => o.sendAll (b.messages wanted fetched) world := by
  rw [Bin.handOver]
  rcases o.cancelled world with ⟨_ | _, world⟩
  · cases fetched with
    | error e => exact (o.sendAll_singleton _ world).symm
    | ok results => exact sendHeights_eq o wanted b.heights results world
  · rfl

end Loops

theorem sendPayload_eq (o : Outlet σ SourceMessage) (p : Payload) (world : σ) :
    sendPayload o p world = o.sendAll (payloadMessages p) world := by
  rw [sendPayload, payloadMessages]
  cases p.decode with
  | error e => exact (o.sendAll_singleton _ world).symm
  | ok d => rfl

theorem followStream_cons (o : Outlet σ SourceMessage) (closed : Bool) (p : Payload) (rest : List Payload)
    (world : σ) :
    followStream o closed (p :: rest) world =
      match o.cancelled world with
      | (true, world) => (some (.ok ()), world)
      | (false, world) =>
        match o.sendAll (payloadMessages p) world with
        | (false, world) => (some (.ok ()), world)
        | (true, world) => followStream o closed rest world := by
  simp only [← sendPayload_eq]
  rfl

/-! ## What is only said to be delivered -/

theorem sendAll_accepting (accepts : Nat → α → Bool) (ms sent : List α) :
    (Outlet.accepting accepts).sendAll ms sent =
      ((deliver accepts sent.length ms).2, sent ++ (deliver accepts sent.length ms).1) := by
  induction ms generalizing sent with
  | nil =>
    rw [Outlet.sendAll, deliver, List.append_nil]
  | cons m ms ih =>
    rw [Outlet.sendAll, deliver]
    by_cases h : accepts sent.length m = true
    · have hsend : (Outlet.accepting accepts).send m sent = (true, sent ++ [m]) := if_pos h
      rw [hsend, if_pos h]
      refine (ih (sent ++ [m])).trans ?_
      rw [List.length_append, List.length_singleton, List.append_assoc]
      rfl
    · have hsend : (Outlet.accepting accepts).send m sent = (false, sent) := if_neg h
      rw [hsend, if_neg h, List.append_nil]

/-- What is delivered of a bin is what its loops deliver. -/
theorem Bin.process_eq (wanted : Option Selection) (accepts : Nat → BackfillMessage → Bool) (b : Bin)
    (fetched : Fetched) :
    b.process wanted accepts (some fetched) =
      ((b.handOver (.accepting accepts) wanted fetched []).2,
        (b.handOver (.accepting accepts) wanted fetched []).1) := by
  rw [Bin.handOver_eq]
  exact congrArg Prod.swap (sendAll_accepting accepts (b.messages wanted fetched) []).symm

theorem followStream_accepting (accepts : Nat → SourceMessage → Bool) (payloads : List Payload)
    (sent : List SourceMessage) :
    followStream (.accepting accepts) true payloads sent =
      (some (subscriptionFrom accepts sent.length payloads).2,
        sent ++ (subscriptionFrom accepts sent.length payloads).1) := by
  induction payloads generalizing sent with
  | nil => exact congrArg (Prod.mk _) (List.append_nil sent).symm
  | cons p payloads ih =>
    have hcancelled : (Outlet.accepting accepts).cancelled sent = (false, sent) := rfl
    rw [followStream_cons, hcancelled, subscriptionFrom]
    simp only [sendAll_accepting]
    cases (deliver accepts sent.length (payloadMessages p)).2 with
    | false => rfl
    | true =>
      refine (ih _).trans ?_
      rw [List.length_append, List.append_assoc]
      rfl

/-- What is delivered of a closed stream is what its loops deliver. -/
theorem runSubscription_eq (accepts : Nat → SourceMessage → Bool) (payloads : List Payload) :
    subscribe (.accepting accepts) (.ok ()) true payloads [] =
      (some (runSubscription accepts payloads).2, (runSubscription accepts payloads).1) :=
  followStream_accepting accepts payloads []

/-! ## Attempts -/

/-- Every attempt to send is recorded with its outcome, latest last. -/
def Outlet.recording (o : Outlet σ α) : Outlet (σ × List (α × Bool)) α where
  cancelled s :=
    let r := o.cancelled s.1
    (r.1, r.2, s.2)
  send m s :=
    let r := o.send m s.1
    (r.1, r.2, s.2 ++ [(m, r.1)])

theorem Outlet.cancelled_recording (o : Outlet σ α) (s : σ × List (α × Bool)) :
    o.recording.cancelled s = ((o.cancelled s.1).1, (o.cancelled s.1).2, s.2) :=
  rfl

theorem Outlet.send_recording (o : Outlet σ α) (m : α) (s : σ × List (α × Bool)) :
    o.recording.send m s = ((o.send m s.1).1, (o.send m s.1).2, s.2 ++ [(m, (o.send m s.1).1)]) :=
  rfl

/-- The messages that have been delivered. -/
def delivered (attempts : List (α × Bool)) : List α := (attempts.filter Prod.snd).map Prod.fst

/-- Attempts to send messages in their order, and whether all messages have been delivered. They may
end before any message, and they do with the first that is refused. -/
inductive Attempts : List α → Bool → List (α × Bool) → Prop
  | finished : Attempts [] true []
  | stopped (ms : List α) : Attempts ms false []
  | refused (m : α) (rest : List α) : Attempts (m :: rest) false [(m, false)]
  | sent (m : α) {rest : List α} {all : Bool} {attempts : List (α × Bool)}
      (h : Attempts rest all attempts) : Attempts (m :: rest) all ((m, true) :: attempts)

namespace Attempts

variable {ms ns : List α} {all : Bool} {attempts later : List (α × Bool)}

theorem append (h : Attempts ms true attempts) (h' : Attempts ns all later) :
    Attempts (ms ++ ns) all (attempts ++ later) := by
  generalize htrue : true = whole at h
  induction h with
  | finished => exact h'
  | stopped | refused => contradiction
  | sent m _ ih => exact .sent m (ih htrue)

theorem append_of_false (h : Attempts ms false attempts) : Attempts (ms ++ ns) false attempts := by
  generalize hfalse : false = whole at h
  induction h with
  | finished => contradiction
  | stopped ms => exact .stopped (ms ++ ns)
  | refused m rest => exact .refused m (rest ++ ns)
  | sent m _ ih => exact .sent m (ih hfalse)

/-- What is delivered comes first. -/
theorem delivered_prefix (h : Attempts ms all attempts) : delivered attempts <+: ms := by
  induction h with
  | finished => exact List.prefix_refl []
  | stopped ms => exact List.nil_prefix
  | refused m rest => exact List.nil_prefix
  | sent m _ ih => exact (List.prefix_cons_inj m).2 ih

theorem delivered_eq (h : Attempts ms true attempts) : delivered attempts = ms := by
  generalize htrue : true = whole at h
  induction h with
  | finished => rfl
  | stopped | refused => contradiction
  | sent m _ ih => exact congrArg (List.cons m) (ih htrue)

/-- Behind a message that is refused nothing is sent. -/
theorem eq_nil_of_refused (h : Attempts ms all attempts) {front back : List (α × Bool)} {m : α}
    (hrefused : attempts = front ++ (m, false) :: back) : back = [] := by
  induction h generalizing front with
  | finished | stopped => exact absurd hrefused (by simp)
  | refused m' rest =>
    cases front with
    | nil => exact (List.cons.inj hrefused).2.symm
    | cons x front => exact absurd (List.cons.inj hrefused).2 (by simp)
  | sent m' h ih =>
    cases front with
    | nil => exact absurd (List.cons.inj hrefused).1 (by simp)
    | cons x front => exact ih (List.cons.inj hrefused).2

end Attempts

/-! ## Recorded runs -/

section Recording

variable (o : Outlet σ α)

/-- A result and the world behind it, without the record. -/
def unrecorded {β : Type} (r : β × σ × List (α × Bool)) : β × σ := (r.1, r.2.1)

theorem unrecorded_sendAll (ms : List α) (s : σ × List (α × Bool)) :
    unrecorded (o.recording.sendAll ms s) = o.sendAll ms s.1 := by
  induction ms generalizing s with
  | nil => rfl
  | cons m ms ih =>
    rw [Outlet.sendAll, Outlet.sendAll, Outlet.send_recording]
    rcases o.send m s.1 with ⟨_ | _, world⟩
    · rfl
    · exact ih _

theorem attempts_sendAll (ms : List α) (s : σ × List (α × Bool)) :
    ∃ attempts, (o.recording.sendAll ms s).2.2 = s.2 ++ attempts ∧
      Attempts ms (o.recording.sendAll ms s).1 attempts := by
  induction ms generalizing s with
  | nil => exact ⟨[], (List.append_nil s.2).symm, .finished⟩
  | cons m ms ih =>
    rw [Outlet.sendAll, Outlet.send_recording]
    rcases o.send m s.1 with ⟨_ | _, world⟩
    · exact ⟨[(m, false)], rfl, .refused m ms⟩
    · obtain ⟨attempts, hattempts, h⟩ := ih (world, s.2 ++ [(m, true)])
      exact ⟨(m, true) :: attempts, hattempts.trans (List.append_assoc _ _ _), .sent m h⟩

end Recording

section Bins

variable (o : Outlet σ BackfillMessage) (wanted : Option Selection) (b : Bin) (fetched : Fetched)

theorem unrecorded_handOver (s : σ × List (BackfillMessage × Bool)) :
    unrecorded (b.handOver o.recording wanted fetched s) = b.handOver o wanted fetched s.1 := by
  rw [Bin.handOver_eq, Bin.handOver_eq, Outlet.cancelled_recording]
  rcases o.cancelled s.1 with ⟨_ | _, world⟩
  · exact unrecorded_sendAll o _ _
  · rfl

theorem attempts_handOver (s : σ × List (BackfillMessage × Bool)) :
    let r := b.handOver o.recording wanted fetched s
    ∃ attempts, r.2.2 = s.2 ++ attempts ∧ Attempts (b.messages wanted fetched) r.1 attempts := by
  rw [Bin.handOver_eq, Outlet.cancelled_recording]
  rcases o.cancelled s.1 with ⟨_ | _, world⟩
  · exact attempts_sendAll o _ _
  · exact ⟨[], (List.append_nil s.2).symm, .stopped _⟩

end Bins

section Streams

variable (o : Outlet σ SourceMessage) (closed : Bool)

theorem unrecorded_followStream (payloads : List Payload) (s : σ × List (SourceMessage × Bool)) :
    unrecorded (followStream o.recording closed payloads s) = followStream o closed payloads s.1 := by
  induction payloads generalizing s with
  | nil =>
    rw [followStream, followStream, Outlet.cancelled_recording]
    rcases o.cancelled s.1 with ⟨_ | _, world⟩ <;> rfl
  | cons p payloads ih =>
    rw [followStream_cons, followStream_cons, Outlet.cancelled_recording]
    rcases o.cancelled s.1 with ⟨_ | _, world⟩
    · simp only
      rw [← unrecorded_sendAll o (payloadMessages p) (world, s.2)]
      rcases o.recording.sendAll (payloadMessages p) (world, s.2) with ⟨_ | _, s⟩
      · rfl
      · exact ih s
    · rfl

/-- A stream is followed without an error if a message of its payloads is not delivered. -/
theorem attempts_followStream (payloads : List Payload) (s : σ × List (SourceMessage × Bool)) :
    let r := followStream o.recording closed payloads s
    ∃ all attempts, r.2.2 = s.2 ++ attempts ∧ Attempts (payloads.flatMap payloadMessages) all attempts ∧
      (all = false → r.1 = some (.ok ())) := by
  induction payloads generalizing s with
  | nil =>
    rw [followStream, Outlet.cancelled_recording]
    refine ⟨true, [], ?_, .finished, fun hfalse => absurd hfalse (by decide)⟩
    rcases o.cancelled s.1 with ⟨_ | _, world⟩ <;> exact (List.append_nil s.2).symm
  | cons p payloads ih =>
    rw [followStream_cons, Outlet.cancelled_recording]
    -- The run ends before the payload, with one of its messages, or behind it with the rest.
    rcases o.cancelled s.1 with ⟨_ | _, world⟩
    · obtain ⟨attempts, hattempts, h⟩ := attempts_sendAll o (payloadMessages p) (world, s.2)
      simp only
      rcases hsent : o.recording.sendAll (payloadMessages p) (world, s.2) with ⟨_ | _, s'⟩
      · rw [hsent] at hattempts h
        exact ⟨false, attempts, hattempts, h.append_of_false, fun _ => rfl⟩
      · rw [hsent] at hattempts h
        obtain ⟨all, later, hlater, h', hresult⟩ := ih s'
        refine ⟨all, attempts ++ later, ?_, h.append h', hresult⟩
        rw [hlater, ← List.append_assoc]
        exact congrArg (· ++ later) hattempts
    · exact ⟨false, [], (List.append_nil s.2).symm, .stopped _, fun _ => rfl⟩

end Streams

/-! ## Uninterrupted runs -/

/-- A stage that is not interrupted; its world is what has been delivered. -/
def Outlet.uninterrupted : Outlet (List α) α := .accepting fun _ _ => true

theorem sendAll_uninterrupted (ms sent : List α) :
    Outlet.uninterrupted.sendAll ms sent = (true, sent ++ ms) := by
  rw [Outlet.uninterrupted, sendAll_accepting, deliver_all]

theorem handOver_uninterrupted (wanted : Option Selection) (b : Bin) (fetched : Fetched) :
    b.handOver .uninterrupted wanted fetched [] = (true, b.messages wanted fetched) := by
  rw [Bin.handOver_eq]
  exact sendAll_uninterrupted (b.messages wanted fetched) []

theorem followStream_uninterrupted (closed : Bool) (payloads : List Payload) (sent : List SourceMessage) :
    followStream .uninterrupted closed payloads sent =
      (if closed then some (.error streamClosed) else none,
        sent ++ payloads.flatMap payloadMessages) := by
  have hcancelled (sent : List SourceMessage) : Outlet.uninterrupted.cancelled sent = (false, sent) := rfl
  induction payloads generalizing sent with
  | nil => rw [followStream, hcancelled, List.flatMap_nil, List.append_nil]
  | cons p payloads ih =>
    rw [followStream_cons, hcancelled]
    simp only [sendAll_uninterrupted, ih, List.flatMap_cons, List.append_assoc]

/-- **Stopping early only truncates.** A bin that is worked off, and likewise a stream that is followed,
delivers the first of the messages that it delivers uninterrupted, which are all that it has, and behind a
message that is not delivered it sends nothing. A bin is worked off to its end only if all of them are
delivered, and a stream is followed without an error if one of them is not. -/
theorem stopping_early_truncates :
    (∀ (σ : Type) (o : Outlet σ BackfillMessage) (wanted : Option Selection) (b : Bin) (fetched : Fetched)
      (world : σ),
      let r := b.handOver o.recording wanted fetched (world, [])
      let whole := (b.handOver .uninterrupted wanted fetched []).2
      b.handOver o wanted fetched world = (r.1, r.2.1) ∧
        b.handOver .uninterrupted wanted fetched [] = (true, b.messages wanted fetched) ∧
        delivered r.2.2 <+: whole ∧
        (∀ front m back, r.2.2 = front ++ (m, false) :: back → back = []) ∧
        (r.1 = true → delivered r.2.2 = whole)) ∧
    ∀ (σ : Type) (o : Outlet σ SourceMessage) (established : Except StorageError Unit) (closed : Bool)
      (payloads : List Payload) (world : σ),
      let r := subscribe o.recording established closed payloads (world, [])
      let whole := (subscribe .uninterrupted established closed payloads []).2
      subscribe o established closed payloads world = (r.1, r.2.1) ∧
        subscribe .uninterrupted (.ok ()) closed payloads [] =
          (if closed then some (.error streamClosed) else none, payloads.flatMap payloadMessages) ∧
        delivered r.2.2 <+: whole ∧
        (∀ front m back, r.2.2 = front ++ (m, false) :: back → back = []) ∧
        (delivered r.2.2 ≠ whole → r.1 = some (.ok ())) := by
  constructor
  · intro σ o wanted b fetched world r whole
    obtain ⟨attempts, hattempts, h⟩ := attempts_handOver o wanted b fetched (world, [])
    have hattempts : r.2.2 = attempts := hattempts
    have huninterrupted := handOver_uninterrupted wanted b fetched
    have hwhole : whole = b.messages wanted fetched := congrArg Prod.snd huninterrupted
    have h : Attempts (b.messages wanted fetched) r.1 attempts := h
    rw [hattempts, hwhole]
    refine ⟨(unrecorded_handOver o wanted b fetched (world, [])).symm, huninterrupted, h.delivered_prefix,
      fun front m back => h.eq_nil_of_refused, fun hall => ?_⟩
    rw [hall] at h
    exact h.delivered_eq
  · intro σ o established closed payloads world r whole
    have huninterrupted := followStream_uninterrupted closed payloads []
    cases established with
    | error e =>
      refine ⟨rfl, huninterrupted, List.prefix_refl _, ?_, fun h => absurd rfl h⟩
      exact fun front m back => Attempts.finished.eq_nil_of_refused
    | ok =>
      obtain ⟨all, attempts, hattempts, h, hresult⟩ := attempts_followStream o closed payloads (world, [])
      have hattempts : r.2.2 = attempts := hattempts
      have hwhole : whole = payloads.flatMap payloadMessages := congrArg Prod.snd huninterrupted
      rw [hattempts, hwhole]
      refine ⟨(unrecorded_followStream o closed payloads (world, [])).symm, huninterrupted,
        h.delivered_prefix, fun front m back => h.eq_nil_of_refused, fun hmissing => ?_⟩
      cases all with
      | false => exact hresult rfl
      | true => exact absurd h.delivered_eq hmissing

/-- A stage whose errors are received up to some number. -/
def errorsUpTo {ε : Type} : Outlet Nat (Except ε Diff) :=
  .ofChannels (fun left => (false, left)) (fun _ left => (true, left))
    fun _ left => (decide (0 < left), left - 1)

/-- Two failed heights whose errors are received, the same where only one of them is, and a payload that
does not decode and whose error is not received. -/
theorem stopping_early_truncates_sample :
    let b : Bin := ⟨7, 8⟩
    let fetched : Fetched := .ok [.error (.io "lost"), .error (.io "late")]
    let r (left : Nat) := b.handOver (Outlet.recording errorsUpTo) none fetched (left, [])
    let followed := subscribe (Outlet.recording errorsUpTo) (.ok ()) true [⟨[], []⟩] (0, [])
    delivered (r 2).2.2 = (b.handOver .uninterrupted none fetched []).2 ∧
      delivered (r 1).2.2 = [.error (.fetch 7 7 (.io "lost"))] ∧
      followed.1 = some (.ok ()) := by
  intro b fetched r followed
  obtain ⟨hbins, hstreams⟩ := stopping_early_truncates
  obtain ⟨-, -, -, -, hall⟩ := hbins Nat errorsUpTo none b fetched 2
  obtain ⟨-, -, -, -, hmissing⟩ := hstreams Nat errorsUpTo (.ok ()) true [⟨[], []⟩] 0
  exact ⟨hall rfl, rfl, hmissing (by decide)⟩

end SlotIndex
