import Mathlib.Data.List.Nodup
import SlotIndex.Diff

/-!
# Where the diffs are on their way

The ids that a poller has sent to a watcher or is about to send, with the places where they can be. An id
is coming once a query has listed it, waits once it has been sent, is in hand once the watcher has taken
it, and is checked in the end. The cursor keeps apart what waits from what a query lists, but not what is
in hand: that can be listed once more.

* `Whereabouts`: the places; `Whereabouts.Sound`: what holds of them at any time.
* `Sound.insert`, `Sound.reset`, `Sound.send`, `Sound.ask`, `Sound.take`, `Sound.mark`: whatever happens,
  it goes on to hold.
-/

namespace SlotIndex

/-- The ids that have been sent, those that the last query has listed and that are still to be sent, and
where they are on their way. -/
structure Whereabouts where
  sent : List DiffId
  coming : List DiffId
  /-- What stands in the channel. -/
  waiting : List DiffId
  cursor : DiffId
  held : Option DiffId
  unchecked : List DiffId
  checked : List DiffId
  overtaken : List DiffId

namespace Whereabouts

/-- The ids that have been sent and those that are coming. -/
def told (b : Whereabouts) : List DiffId := b.sent ++ b.coming

/-- What has been sent waits below the cursor, is in hand or is checked, and what is coming stands above
the cursor. An id that has been listed while it was in hand is coming or waits once more, until it is
checked, and it is the only kind of id that is told twice. -/
structure Sound (b : Whereabouts) : Prop where
  not_checked : ∀ id ∈ b.unchecked, id ∉ b.checked
  waiting_le : ∀ id ∈ b.waiting, id ≤ b.cursor
  waiting_sent : ∀ id ∈ b.waiting, id ∈ b.sent
  lt_coming : ∀ id ∈ b.coming, b.cursor < id
  coming_sorted : b.coming.Pairwise (· < ·)
  held_sent : ∀ id, b.held = some id → id ∈ b.sent
  place : ∀ id ∈ b.sent, id ∈ b.waiting ∨ b.held = some id ∨ id ∈ b.checked
  overtaken_told : ∀ id ∈ b.overtaken, id ∈ b.told
  overtaken_place : ∀ id ∈ b.overtaken,
    id ∈ b.checked ∨ b.held = some id ∧ (id ∈ b.waiting ∨ id ∈ b.coming)
  count : ∀ id ∈ b.told, b.told.count id = if id ∈ b.overtaken then 2 else 1

variable {b : Whereabouts}

theorem Sound.insert (hb : b.Sound) {id : DiffId} (h : id ∉ b.checked) :
    Sound { b with unchecked := b.unchecked ++ [id] } where
  __ := hb
  not_checked j hj := by
    rcases List.mem_append.1 hj with hj | hj
    · exact hb.not_checked j hj
    · rwa [List.mem_singleton.1 hj]

theorem Sound.reset (hb : b.Sound) (hwaiting : b.waiting = []) (hcoming : b.coming = [])
    (cursor : DiffId) : Sound { b with cursor } where
  __ := hb
  waiting_le := by
    rw [hwaiting]
    exact nofun
  lt_coming := by
    rw [hcoming]
    exact nofun

/-- The first id that is coming goes into the channel. -/
theorem Sound.send (hb : b.Sound) {id : DiffId} {rest : List DiffId} (h : b.coming = id :: rest) :
    Sound { b with
      sent := b.sent ++ [id]
      coming := rest
      waiting := b.waiting ++ [id]
      cursor := max b.cursor id } := by
  have hlt : b.cursor < id := hb.lt_coming id (h ▸ List.mem_cons_self)
  have hsorted := hb.coming_sorted
  rw [h, List.pairwise_cons] at hsorted
  have htold : b.sent ++ [id] ++ rest = b.told := by
    rw [told, h, List.append_assoc, List.singleton_append]
  -- What has been told stays the same list, so the counts do.
  constructor
  case not_checked => exact hb.not_checked
  case waiting_le =>
    intro j hj
    rcases List.mem_append.1 hj with hj | hj
    · exact Int.le_trans (hb.waiting_le j hj) (Int.le_max_left _ _)
    · rw [List.mem_singleton.1 hj]
      exact Int.le_max_right _ _
  case waiting_sent =>
    intro j hj
    exact (List.mem_append.1 hj).elim (fun hj => List.mem_append_left _ (hb.waiting_sent j hj))
      (List.mem_append_right _)
  case lt_coming =>
    intro j hj
    exact Int.max_lt.2 ⟨Int.lt_trans hlt (hsorted.1 j hj), hsorted.1 j hj⟩
  case coming_sorted => exact hsorted.2
  case held_sent => exact fun j hj => List.mem_append_left _ (hb.held_sent j hj)
  case place =>
    intro j hj
    rcases List.mem_append.1 hj with hj | hj
    · exact (hb.place j hj).imp_left (List.mem_append_left _)
    · exact .inl (List.mem_append_right _ hj)
  case overtaken_told =>
    change ∀ j ∈ b.overtaken, j ∈ b.sent ++ [id] ++ rest
    rw [htold]
    exact hb.overtaken_told
  case overtaken_place =>
    intro j hj
    refine (hb.overtaken_place j hj).imp_right (And.imp_right ?_)
    rw [h, List.mem_cons]
    rintro (hwaits | rfl | hcomes)
    · exact .inl (List.mem_append_left _ hwaits)
    · exact .inl (List.mem_append_right _ (List.mem_singleton_self j))
    · exact .inr hcomes
  case count =>
    change ∀ j ∈ b.sent ++ [id] ++ rest, (b.sent ++ [id] ++ rest).count j = _
    rw [htold]
    exact hb.count

/-- A query lists unchecked ids above the cursor. Those among them that have been sent are in hand, since
what waits is below the cursor, and they are listed then for the second time. -/
theorem Sound.ask (hb : b.Sound) (h : b.coming = []) {ids : List DiffId}
    (hsorted : ids.Pairwise (· < ·)) (hids : ∀ id ∈ ids, id ∈ b.unchecked ∧ b.cursor < id) :
    Sound { b with
      coming := ids
      overtaken := b.overtaken ++ ids.filter fun id => b.held = some id } := by
  have htold : b.told = b.sent := by rw [told, h, List.append_nil]
  have hnodup : ids.Nodup := hsorted.imp fun hlt => Int.ne_of_lt hlt
  have hheld : ∀ id ∈ ids, id ∈ b.sent → b.held = some id := by
    intro id hid hsent
    obtain ⟨hunchecked, hlt⟩ := hids id hid
    rcases hb.place id hsent with hwaits | hheld | hchecked
    · exact absurd hlt (Int.not_lt.2 (hb.waiting_le id hwaits))
    · exact hheld
    · exact absurd hchecked (hb.not_checked id hunchecked)
  -- An id that is overtaken and not checked waits or comes, so no query lists it a third time.
  have hfirst : ∀ id ∈ ids, id ∉ b.overtaken := by
    intro id hid hovertaken
    obtain ⟨hunchecked, hlt⟩ := hids id hid
    rcases hb.overtaken_place id hovertaken with hchecked | ⟨-, hwaits | hcomes⟩
    · exact hb.not_checked id hunchecked hchecked
    · exact absurd hlt (Int.not_lt.2 (hb.waiting_le id hwaits))
    · rw [h] at hcomes
      exact List.not_mem_nil hcomes
  constructor
  case not_checked => exact hb.not_checked
  case waiting_le => exact hb.waiting_le
  case waiting_sent => exact hb.waiting_sent
  case lt_coming => exact fun id hid => (hids id hid).2
  case coming_sorted => exact hsorted
  case held_sent => exact hb.held_sent
  case place => exact hb.place
  case overtaken_told =>
    intro id hid
    rcases List.mem_append.1 hid with hid | hid
    · exact List.mem_append_left _ (htold ▸ hb.overtaken_told id hid)
    · exact List.mem_append_right _ (List.mem_filter.1 hid).1
  case overtaken_place =>
    intro id hid
    rcases List.mem_append.1 hid with hid | hid
    · refine (hb.overtaken_place id hid).imp_right (And.imp_right ?_)
      rw [h]
      exact fun hplace => .inl (hplace.resolve_right List.not_mem_nil)
    · obtain ⟨hcomes, hheld⟩ := List.mem_filter.1 hid
      exact .inr ⟨of_decide_eq_true hheld, .inr hcomes⟩
  case count =>
    intro id hid
    change (b.sent ++ ids).count id = _
    have hcount := hb.count id
    rw [htold] at hcount
    have hmem : id ∈ b.overtaken ++ ids.filter (fun id => b.held = some id) ↔
        id ∈ b.overtaken ∨ id ∈ ids ∧ b.held = some id := by
      rw [List.mem_append, List.mem_filter, decide_eq_true_eq]
    simp only [hmem]
    rw [List.count_append]
    -- An id that is listed now is told once more; the others are told as often as before.
    by_cases hlisted : id ∈ ids
    · rw [List.count_eq_one_of_mem hnodup hlisted]
      by_cases hsent : id ∈ b.sent
      · rw [hcount hsent, if_neg (hfirst id hlisted), if_pos (.inr ⟨hlisted, hheld id hlisted hsent⟩)]
      · have hnot : ¬ b.held = some id := fun hh => hsent (hb.held_sent id hh)
        rw [List.count_eq_zero_of_not_mem hsent, if_neg]
        rintro (hovertaken | ⟨-, hh⟩)
        · exact hfirst id hlisted hovertaken
        · exact hnot hh
    · have hsent : id ∈ b.sent := (List.mem_append.1 hid).resolve_right hlisted
      rw [List.count_eq_zero_of_not_mem hlisted, hcount hsent, Nat.add_zero]
      exact if_congr ⟨.inl, fun h => h.resolve_right fun hh => hlisted hh.1⟩ rfl rfl

theorem Sound.take (hb : b.Sound) (hheld : b.held = none) {id : DiffId} {rest : List DiffId}
    (h : b.waiting = id :: rest) : Sound { b with waiting := rest, held := some id } := by
  have hmem : ∀ j ∈ rest, j ∈ b.waiting := fun j hj => h ▸ List.mem_cons_of_mem id hj
  constructor
  case not_checked => exact hb.not_checked
  case waiting_le => exact fun j hj => hb.waiting_le j (hmem j hj)
  case waiting_sent => exact fun j hj => hb.waiting_sent j (hmem j hj)
  case lt_coming => exact hb.lt_coming
  case coming_sorted => exact hb.coming_sorted
  case held_sent =>
    rintro j ⟨⟩
    exact hb.waiting_sent id (h ▸ List.mem_cons_self)
  case place =>
    intro j hj
    have hplace := hb.place j hj
    rw [h, hheld, List.mem_cons] at hplace
    rcases hplace with (rfl | hwaits) | hnone | hchecked
    · exact .inr (.inl rfl)
    · exact .inl hwaits
    · cases hnone
    · exact .inr (.inr hchecked)
  case overtaken_told => exact hb.overtaken_told
  case overtaken_place =>
    intro j hj
    rcases hb.overtaken_place j hj with hchecked | ⟨hh, -⟩
    · exact .inl hchecked
    · rw [hheld] at hh
      cases hh
  case count => exact hb.count

theorem Sound.mark (hb : b.Sound) {id : DiffId} (hheld : b.held = some id) :
    Sound { b with
      unchecked := b.unchecked.filter fun j => j ≠ id
      checked := id :: b.checked
      held := none } where
  __ := hb
  not_checked j hj := by
    obtain ⟨hj, hne⟩ := List.mem_filter.1 hj
    rw [List.mem_cons, not_or]
    exact ⟨of_decide_eq_true hne, hb.not_checked j hj⟩
  held_sent := nofun
  place j hj := by
    rcases hb.place j hj with hwaits | hh | hchecked
    · exact .inl hwaits
    · rw [hheld] at hh
      cases hh
      exact .inr (.inr List.mem_cons_self)
    · exact .inr (.inr (List.mem_cons_of_mem _ hchecked))
  overtaken_place j hj := by
    rcases hb.overtaken_place j hj with hchecked | ⟨hh, -⟩
    · exact .inl (List.mem_cons_of_mem _ hchecked)
    · rw [hheld] at hh
      cases hh
      exact .inl List.mem_cons_self

end Whereabouts

end SlotIndex
