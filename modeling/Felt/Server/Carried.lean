import Felt.Server.Sound

/-!
# What a message carries

A message carries the objects its call mentions whole, and those that they
mention so. When what is mentioned whole mentions nothing further, that is
all it carries – so for the broadcasts of a method, which mention at most one
object that has no id yet, and for a snapshot, which mentions everything.

In general what is carried is a closure, and `pack` computes it by going through
all the objects there are as often as it takes. The lemmas here say what comes
out in the cases that occur, so that nobody else has to look at how it is
computed: nothing whole is mentioned (`pack_of_known`), or one object that has
nothing whole in it (`pack_of_whole`).

An entity that is made with children is not among these. Its constructor moves
them before it has an id, and they are broadcast with the new entity written
whole (`Felt.Client.Construction`).
-/

namespace Felt

namespace Server

variable {α : Type} {g : Game α} {objs : Obj → Option ℕ} {call : Call α} {o : Obj}

theorem mem_made_entity {e : ℕ} : .entity e ∈ made g ↔ e < g.nextEntity := by
  unfold made
  rw [List.mem_append, List.mem_map, List.mem_map]
  constructor
  · rintro (⟨i, hi, he⟩ | ⟨i, -, he⟩)
    · obtain rfl := Obj.entity.inj he
      exact List.mem_range.mp hi
    · cases he
  · exact fun he => Or.inl ⟨e, List.mem_range.mpr he, rfl⟩

theorem mem_made_player {p : ℕ} : .player p ∈ made g ↔ p < g.nextPlayer := by
  unfold made
  rw [List.mem_append, List.mem_map, List.mem_map]
  constructor
  · rintro (⟨i, -, hp⟩ | ⟨i, hi, hp⟩)
    · cases hp
    · obtain rfl := Obj.player.inj hp
      exact List.mem_range.mp hi
  · exact fun hp => Or.inr ⟨p, List.mem_range.mpr hp, rfl⟩

/-- Nothing is made twice. -/
theorem nodup_made (g : Game α) : (made g).Nodup := by
  unfold made
  refine List.Nodup.append (List.nodup_range.map (fun _ _ h => Obj.entity.inj h))
    (List.nodup_range.map (fun _ _ h => Obj.player.inj h)) ?_
  intro o he hp
  obtain ⟨_, -, rfl⟩ := List.mem_map.mp he
  obtain ⟨_, -, h⟩ := List.mem_map.mp hp
  cases h

/-- **What the call mentions whole is carried.** -/
theorem mem_carried (ho : o ∈ made g) (hcall : .whole o ∈ call.mentions) :
    o ∈ carried g objs call := by
  have hkeep : ∀ (n : ℕ) (os : List Obj), o ∈ os → o ∈ (carryMore g objs)^[n] os := by
    intro n
    induction n with
    | zero => exact fun os hos => hos
    | succ n ih =>
      intro os hos
      rw [Function.iterate_succ_apply]
      exact ih _ (List.mem_filter.mpr ⟨ho, decide_eq_true (Or.inl hos)⟩)
  exact hkeep _ _ (List.mem_filter.mpr ⟨ho, decide_eq_true hcall⟩)

/-- **When what the call mentions whole mentions nothing further whole**, that
is what is carried. -/
theorem carried_of_closed (h : ∀ o, .whole o ∈ call.mentions → ∀ c ∈ ctor g objs o,
    ∀ o', .whole o' ∈ c.mentions → .whole o' ∈ call.mentions) :
    carried g objs call = (made g).filter (fun o => .whole o ∈ call.mentions) := by
  refine Function.iterate_fixed (List.filter_congr (fun o ho => ?_)) _
  refine decide_eq_decide.mpr ⟨?_, fun hcall => Or.inl (List.mem_filter.mpr
    ⟨ho, decide_eq_true hcall⟩)⟩
  rintro (hin | ⟨o', ho', c, hc, hmention⟩)
  · exact of_decide_eq_true (List.mem_filter.mp hin).2
  · exact h o' (of_decide_eq_true (List.mem_filter.mp ho').2) c (Option.mem_toList.mp hc) o hmention

/-- **A call that mentions nothing whole** is sent as it is. -/
theorem pack_of_known (h : ∀ o, .whole o ∉ call.mentions) : pack g objs call = ⟨call, []⟩ := by
  have hnone : carried g objs call = [] := by
    rw [carried_of_closed (fun o ho => absurd ho (h o))]
    exact List.filter_eq_nil_iff.mpr (fun o _ => by simpa using h o)
  unfold pack
  rw [hnone]
  rfl

/-- **A call that mentions one object whole**, which mentions none, carries
it. -/
theorem pack_of_whole {c : Ctor α} (ho : o ∈ made g) (hc : ctor g objs o = some c)
    (hcall : ∀ o', .whole o' ∈ call.mentions ↔ o' = o) (hmentions : ∀ o', .whole o' ∉ c.mentions) :
    pack g objs call = ⟨call, [(o, c)]⟩ := by
  have hone : carried g objs call = [o] := by
    rw [carried_of_closed (fun o' ho' c' hc' o'' ho'' => ?_)]
    · have hfilter : (made g).filter (fun o' => .whole o' ∈ call.mentions)
          = (made g).filter (· == o) :=
        List.filter_congr (fun o' _ => by
          rw [Bool.eq_iff_iff, decide_eq_true_iff, beq_iff_eq]
          exact hcall o')
      rw [hfilter, List.filter_beq, List.count_eq_one_of_mem (nodup_made g) ho]
      rfl
    · obtain rfl := (hcall o').mp ho'
      obtain rfl : c = c' := Option.some.inj (hc.symm.trans hc')
      exact absurd ho'' (hmentions o'')
  unfold pack
  rw [hone, List.flatMap_singleton, hc]
  rfl

/-! ## Broadcasts -/

variable {v : Entity}

/-- The next entity is in no table. -/
theorem unknown_of_sound {fits : Kind → Kind → Prop} (h : Sound fits g) :
    g.rObjects.get (.entity g.nextEntity) = none := by
  rcases hid : g.rObjects.get (.entity g.nextEntity) with _ | id
  · rfl
  · exact absurd (h.listed_iff.mpr ⟨id, hid⟩) (h.fresh le_rfl).1

/-- How an entity is written that is in no table. -/
theorem packed_of_unknown {o : Obj} (h : g.known o = none) : packed g.known o = .whole o := by
  unfold packed
  rw [h]

/-- The message of a move. -/
def moveMessage (k : ℕ) (parent : Option ℕ) (x y : Option ℚ) (g : Game α) : Msg α :=
  let g' := g.placed k parent x y
  pack g' g'.known (movetoCall k parent x y (packed g'.known))

theorem sent_moved (k : ℕ) (parent : Option ℕ) (x y : Option ℚ) (g : Game α) :
    (g.moved k parent x y).sent = g.sent ++ [moveMessage k parent x y g] := rfl

/-- The message of a registration. -/
def enrollMessage (o : Obj) (id : ℕ) (g : Game α) : Msg α :=
  let g' := g.setId o id
  pack g' g'.known (.addObject (packed g'.known .game) (packed g'.known o))

theorem sent_enrolled (o : Obj) (id : ℕ) (g : Game α) :
    (g.enrolled o id).sent = g.sent ++ [enrollMessage o id g] := by
  cases o <;> rfl

/-- **The message of a new entity without children.** -/
theorem enrollMessage_childless (hchildren : v.children = [])
    (hnew : g.rObjects.get (.entity g.nextEntity) = none) (id : ℕ) :
    enrollMessage (.entity g.nextEntity) id (g.alloc v)
      = ⟨.addObject (.known 0 .game) (.whole (.entity g.nextEntity)),
          [(.entity g.nextEntity, .entity v.kind (some id) v.name v.x v.y v.w v.h v.game []
            v.count)]⟩ := by
  let g' := (g.alloc v).setId (.entity g.nextEntity) id
  have hwhole : packed g'.known (.entity g.nextEntity) = .whole (.entity g.nextEntity) :=
    packed_of_unknown hnew
  have hself : g'.entities g.nextEntity = { v with id := some id } := by
    show ((g.alloc v).mapEntity g.nextEntity (fun w => { w with id := some id })).entities _ = _
    rw [mapEntity_self, alloc_entities, if_pos rfl]
  have hctor : ctor g' g'.known (.entity g.nextEntity) = some (.entity v.kind (some id) v.name v.x
      v.y v.w v.h v.game [] v.count) := by
    show some (Ctor.entity _ _ _ _ _ _ _ _ ((g'.entities g.nextEntity).children.map _) _) = _
    rw [hself]
    show some (Ctor.entity _ _ _ _ _ _ _ _ (v.children.map _) _) = _
    rw [hchildren]
    rfl
  show pack g' g'.known (.addObject (.known 0 .game) (packed g'.known (.entity g.nextEntity))) = _
  rw [hwhole]
  refine pack_of_whole (mem_made_entity.mpr (Nat.lt_succ_self _)) hctor (fun o => ?_)
    (fun _ => List.not_mem_nil)
  show Packed.whole o ∈ [.known 0 .game, .whole (.entity g.nextEntity)] ↔ _
  simp

theorem known_setId (o : Obj) (id : ℕ) (g : Game α) : (g.setId o id).known = g.known := by
  cases o <;> rfl

/-- **The message of an object that is registered again.** -/
theorem enrollMessage_known {id' : ℕ} (hknown : g.known o = some id') (id : ℕ) :
    enrollMessage o id g = ⟨.addObject (.known 0 .game) (.known id' o), []⟩ := by
  have hpacked : packed g.known o = .known id' o := by
    unfold packed
    rw [hknown]
  show pack (g.setId o id) (g.setId o id).known
    (.addObject (packed (g.setId o id).known .game) (packed (g.setId o id).known o)) = _
  rw [known_setId, hpacked]
  refine pack_of_known (fun o' ho' => ?_)
  change Packed.whole o' ∈ [.known 0 .game, .known id' o] at ho'
  simp at ho'

/-- **The message of a new player.** -/
theorem enrollMessage_player (name : Bytes) (r b c : Value α)
    (hnew : g.rObjects.get (.player g.nextPlayer) = none) (id : ℕ) :
    enrollMessage (.player g.nextPlayer) id (g.born ⟨name, none, none, r, b, c⟩)
      = ⟨.addObject (.known 0 .game) (.whole (.player g.nextPlayer)),
          [(.player g.nextPlayer, .player (some id) name none r b c)]⟩ := by
  let g' := (g.born ⟨name, none, none, r, b, c⟩).setId (.player g.nextPlayer) id
  have hwhole : packed g'.known (.player g.nextPlayer) = .whole (.player g.nextPlayer) :=
    packed_of_unknown hnew
  have hself : g'.people g.nextPlayer = ⟨name, some id, none, r, b, c⟩ := by
    show Function.update (Function.update g.people _ _) _ _ _ = _
    rw [Function.update_self]
    show ({ Function.update g.people _ _ _ with id := some id } : Player α) = _
    rw [Function.update_self]
  have hctor : ctor g' g'.known (.player g.nextPlayer)
      = some (.player (some id) name none r b c) := by
    show some (Ctor.player (g'.people g.nextPlayer).id _ _ _ _ _) = _
    rw [hself]
    rfl
  show pack g' g'.known (.addObject (.known 0 .game) (packed g'.known (.player g.nextPlayer))) = _
  rw [hwhole]
  refine pack_of_whole (mem_made_player.mpr (Nat.lt_succ_self _)) hctor (fun o => ?_)
    (fun _ => List.not_mem_nil)
  show Packed.whole o ∈ [.known 0 .game, .whole (.player g.nextPlayer)] ↔ _
  simp

end Server

end Felt
