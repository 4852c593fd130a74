import Felt.Server.Lasting
import Felt.Server.Update

/-!
# What a game refers to

Hands hold what has an id, and are those of players who have one; the table of
players has the players that were made, each under their name. That is so after
every update, also between those that belong together, so that whatever a
client is told of it can be looked up.

`Sound` says this of a game between two changes, and more. But a change may be
several updates, which are broadcast one at a time, and the client has the first
of them before it has the second. So what is needed to look something up is a
property of its own, and it is kept by each update (`Game.Linked.update`): what
is deleted was let go before, and what comes is in nobody's hand yet.
-/

namespace Felt

namespace Server

variable {α : Type} {P : Policy} {L : Dict.Length Obj} {g g' : Game α}

/-- **Whatever is referred to has an id**, and the players are in their
table. -/
structure Game.Linked (g : Game α) : Prop where
  /-- What is held. -/
  held : ∀ p e, (g.people p).held = some e → g.Listed (.entity e)
  /-- Who holds it. -/
  heldBy : ∀ e p, (g.entities e).heldBy = some p → g.Listed (.player p)
  /-- The players. -/
  player : ∀ n p, g.players.get n = some p → g.Listed (.player p)
  /-- They are under their names. -/
  seat : ∀ p, g.Listed (.player p) → g.players.get (g.people p).name = some p

theorem linked_empty : (Game.empty : Game α).Linked where
  held _ _ hp := by cases hp
  heldBy _ _ hp := by cases hp
  player _ _ hp := by cases hp
  seat _ hp := by
    obtain ⟨id, hid⟩ := hp
    cases hid

/-- **Nothing else is referred to.** -/
theorem Game.Linked.same (h : g.Linked) (hlisted : ∀ o, g'.Listed o ↔ g.Listed o)
    (hheld : ∀ p, (g'.people p).held = (g.people p).held)
    (hheldBy : ∀ e, (g'.entities e).heldBy = (g.entities e).heldBy)
    (hplayers : g'.players = g.players) (hname : ∀ p, (g'.people p).name = (g.people p).name) :
    g'.Linked where
  held p e he := (hlisted _).mpr (h.held p e ((hheld p).symm.trans he))
  heldBy e p hp := (hlisted _).mpr (h.heldBy e p ((hheldBy e).symm.trans hp))
  player n p hp := (hlisted _).mpr (h.player n p (hplayers ▸ hp))
  seat p hp := by
    rw [hplayers, hname]
    exact h.seat p ((hlisted _).mp hp)

/-- The objects when a player has come. -/
theorem seated_listed (L : Dict.Length Obj) (name : Bytes) (r b c : Value α) (o : Obj) :
    (g.seated name r b c (L.border g.objects + 1)).Listed o
      ↔ o = .player g.nextPlayer ∨ g.Listed o :=
  enrolled_listed (g := g.born ⟨name, none, none, r, b, c⟩) (objects_free L g) o

/-- Whoever comes back holds what they held. -/
theorem returned_held (p : ℕ) (name : Bytes) (r b c : Value α) (q : ℕ) :
    ((g.returned p name r b c).people q).held = (g.people q).held := by
  show (Function.update g.people p _ q).held = _
  rw [Function.update_apply]
  split_ifs with hq
  · rw [hq]
  · rfl

theorem tweak_heldBy (e : ℕ) (opened : Bool) (count : Count) (e' : ℕ) :
    ((g.mapEntity e (fun v => { v with opened := opened, count := count })).entities e').heldBy
      = (g.entities e').heldBy := by
  rw [mapEntity_eq]
  refine changeAt_field Entity.heldBy ?_ _ _ _
  exact fun _ => rfl

/-- What is there when something has been deleted. -/
theorem deleted_listed {e id : ℕ} (hg : Numbered g) (hid : g.objects.get id = some (.entity e))
    (o : Obj) : (g.deleted e id).Listed o ↔ o ≠ .entity e ∧ g.Listed o := by
  have hget : ∀ id', (g.deleted e id).objects.get id' = if id' = id then none
      else g.objects.get id' := fun id' => Dict.get_erase _ _ _
  constructor
  · rintro ⟨id', hid'⟩
    rw [hget] at hid'
    split_ifs at hid' with hne
    refine ⟨?_, id', hid'⟩
    rintro rfl
    exact hne (Option.some.inj ((hg.id_of id' _ hid').symm.trans (hg.id_of id _ hid)))
  · rintro ⟨hne, id', hid'⟩
    refine ⟨id', ?_⟩
    rw [hget, if_neg, hid']
    rintro rfl
    exact hne (Option.some.inj (hid'.symm.trans hid))

/-- An entity or a player that is made next is in no table. -/
theorem Numbered.ne_of_unknown (hg : Numbered g) {o o' : Obj} (ho : g.Listed o)
    (hnew : g.rObjects.get o' = none) : o ≠ o' := by
  rintro rfl
  obtain ⟨id, hid⟩ := ho
  rw [(hg.inverse id _).mp hid] at hnew
  cases hnew

/-- **Whatever an update refers to has an id.** -/
theorem Game.Linked.update (h : g.Linked) (hg : Numbered g) {ms : List (Msg α)}
    (hu : Update P L g ms g') : g'.Linked := by
  -- most updates leave the objects and what they refer to; the others are a hand, and what comes
  -- and goes
  cases hu with
  | quiet _ =>
    exact h.same (SameObjects.listed (.say _ _)) (fun _ => rfl) (fun _ => rfl) rfl (fun _ => rfl)
  | @held p item hp hitem =>
    have hs := SameObjects.withHeld g p item
    refine ⟨fun q e hq => (hs.listed _).mpr ?_, fun e q hq => (hs.listed _).mpr (h.heldBy e q hq),
      fun n q hq => (hs.listed _).mpr (h.player n q hq), fun q hq => ?_⟩
    · rw [withHeld_people] at hq
      split_ifs at hq
      · exact hitem e hq
      · exact h.held q e hq
    · rw [hs.name, hs.players]
      exact h.seat q ((hs.listed _).mp hq)
  | @heldBy e who he hwho =>
    have hs := SameObjects.withHeldBy g e who
    refine ⟨fun q e' hq => (hs.listed _).mpr (h.held q e' hq),
      fun e' q hq => (hs.listed _).mpr ?_, fun n q hq => (hs.listed _).mpr (h.player n q hq),
      fun q hq => h.seat q ((hs.listed _).mp hq)⟩
    rw [withHeldBy_entities] at hq
    unfold changeAt at hq
    split_ifs at hq
    · exact hwho q hq
    · exact h.heldBy e' q hq
  | @moved e parent x y _ _ _ _ =>
    exact h.same (SameObjects.moved g e parent x y).listed (fun _ => rfl) (fun _ => rfl) rfl
      (fun _ => rfl)
  | @placed e _ =>
    exact h.same (SameObjects.placed g e none none none).listed (fun _ => rfl) (fun _ => rfl) rfl
      (fun _ => rfl)
  | @created v hv _ =>
    have hlisted := created_listed L v g
    refine ⟨fun p e hp => (hlisted _).mpr (Or.inr (h.held p e hp)),
      fun e p hp => (hlisted _).mpr (Or.inr ?_),
      fun n p hp => (hlisted _).mpr (Or.inr (h.player n p hp)),
      fun p hp => h.seat p (((hlisted _).mp hp).resolve_left nofun)⟩
    -- nobody holds what is new
    by_cases hnew : e = g.nextEntity
    · rw [hnew, created_self] at hp
      exact absurd (hv.heldBy.symm.trans hp) nofun
    · rw [created_of_ne L v hnew] at hp
      exact h.heldBy e p hp
  | @again o id ho =>
    have hs := sameLinks_enrolled (hg.id_of _ _ ho) ho ((hg.inverse _ _).mp ho)
    exact h.same hs.listed hs.held hs.heldBy hs.players hs.name
  | @deleted e id hid _ _ hlone =>
    have hlisted := deleted_listed hg hid
    -- what is deleted is in no hand
    exact ⟨fun p e' hp => (hlisted _).mpr
        ⟨fun heq => hlone.held p (Obj.entity.inj heq ▸ hp), h.held p e' hp⟩,
      fun e' p hp => (hlisted _).mpr ⟨nofun, h.heldBy e' p hp⟩,
      fun n p hp => (hlisted _).mpr ⟨nofun, h.player n p hp⟩,
      fun p hp => h.seat p ((hlisted _).mp hp).2⟩
  | named _ => exact ⟨h.held, h.heldBy, h.player, h.seat⟩
  | @seated name r b c hname hnew =>
    have hlisted := seated_listed (g := g) L name r b c
    have hget : ∀ n, (g.seated name r b c (L.border g.objects + 1)).players.get n
        = if n = name then some g.nextPlayer else g.players.get n := fun n => Dict.get_set _ _ _ _
    refine ⟨fun p e hp => (hlisted _).mpr (Or.inr ?_),
      fun e p hp => (hlisted _).mpr (Or.inr (h.heldBy e p hp)), fun n p hp => (hlisted _).mpr ?_,
      fun p hp => ?_⟩
    · rw [seated_people] at hp
      split_ifs at hp
      exact h.held p e hp
    · rw [hget] at hp
      split_ifs at hp
      · exact Or.inl (congrArg Obj.player (Option.some.inj hp).symm)
      · exact Or.inr (h.player n p hp)
    · rw [hget, seated_people]
      rcases (hlisted _).mp hp with hself | hold
      · rw [if_pos (Obj.player.inj hself), if_pos rfl, Obj.player.inj hself]
      · have hne : p ≠ g.nextPlayer := fun hp => hg.ne_of_unknown hold hnew (congrArg _ hp)
        have hseat := h.seat p hold
        rw [if_neg hne, if_neg, hseat]
        intro hn
        rw [hn, hname] at hseat
        cases hseat
  | @returned name p r b c hname _ =>
    have hs := SameObjects.mapPlayer g p (f := fun v => { v with
      name := name, r := override v.r r, g := override v.g b, b := override v.b c }) rfl hname.symm
    exact h.same hs.listed (returned_held p name r b c) (fun _ => rfl) rfl hs.name
  | announced _ =>
    exact h.same (SameObjects.listed (.say _ _)) (fun _ => rfl) (fun _ => rfl) rfl (fun _ => rfl)
  | @tweak e opened count =>
    have hs := SameObjects.mapEntity g e
      (f := fun v => { v with opened := opened, count := count }) (fun _ => rfl) (fun _ => rfl)
      (fun _ => rfl)
    exact h.same hs.listed (fun _ => rfl) (tweak_heldBy e opened count) rfl (fun _ => rfl)
  | load => exact ⟨h.held, h.heldBy, h.player, h.seat⟩

theorem Game.Linked.updates (h : g.Linked) (hg : Numbered g) {ms : List (Msg α)}
    (hus : Updates P L g ms g') : g'.Linked := by
  induction hus with
  | nil => exact h
  | cons hu _ ih => exact ih (h.update hg hu) (hu.numbered hg)

/-- **Every change keeps a game linked.** -/
theorem persists_linked (L : Dict.Length Obj) : Persists Policy.shipped L Game.Linked where
  settled h := ⟨h.held, h.heldBy, h.player, h.seat⟩
  change {g g'} hg hc h := by
    have hfield : ∀ a b, Kind.Below a b → a ≠ .field := by
      rintro a b hbelow rfl
      revert hbelow
      cases b <;> decide
    obtain ⟨ms, hms⟩ := updates_of_change hg hfield id hc
    exact h.updates hg.numbered hms

end Server

end Felt
