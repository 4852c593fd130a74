import Felt.Server.Carried
import Felt.Server.Script

/-!
# Changes, and what is broadcast of them

A change of the game is a few assignments, and most assignments are broadcast
at once. `Update` says for each what the broadcast is, with the ids the
objects have then; `Updates` is a sequence of them. Every change is such a
sequence, so that what a client makes of a change is what it makes of each of
these broadcasts.

Between two assignments that belong together hands need not agree, nor need
the tree. The ids are always in order.

There is an update for each assignment that matters to a client, also for those
that no client hears of: an entity that is taken from its parent silently, or the
colours of a player who comes back. What clients have of these cannot be right,
and a `Policy` decides whether they occur.
-/

namespace Felt

namespace Server

variable {α : Type} {P : Policy} {L : Dict.Length Obj} {g g₁ g' : Game α}

/-! ## Ids in order -/

/-- **The ids of a game are in order.** -/
structure Numbered (g : Game α) : Prop where
  /-- The tables are inverse to each other. -/
  inverse : Dict.Inverse g.objects g.rObjects
  /-- An object in them knows its id. -/
  id_of : ∀ id o, g.objects.get id = some o → g.idOf o = some id
  /-- The id `0` is the game's. -/
  pos : g.objects.get 0 = none

theorem Sound.numbered {fits : Kind → Kind → Prop} (h : Sound fits g) : Numbered g :=
  ⟨h.inverse, h.id_of, h.pos⟩

theorem Numbered.sameObjects (h : Numbered g) (hs : SameObjects g g') : Numbered g' where
  inverse id o := by
    rw [hs.objects, hs.rObjects]
    exact h.inverse id o
  id_of id o ho := by
    rw [hs.objects] at ho
    rw [hs.idOf, h.id_of id o ho]
  pos := by rw [hs.objects, h.pos]

theorem Numbered.known_eq (h : Numbered g) {id : ℕ} {o : Obj} (ho : g.objects.get id = some o) :
    g.known o = some id := by
  cases o with
  | game =>
    obtain rfl : 0 = id := Option.some.inj (h.id_of id .game ho)
    rw [h.pos] at ho
    cases ho
  | entity e => exact (h.inverse id _).mp ho
  | player p => exact (h.inverse id _).mp ho

/-- How an object is written that has an id. -/
theorem Numbered.packed_eq (h : Numbered g) {id : ℕ} {o : Obj} (ho : g.objects.get id = some o) :
    packed g.known o = .known id o := by
  unfold packed
  rw [h.known_eq ho]

/-- What is in a table is written as an id. -/
theorem Numbered.not_whole (h : Numbered g) {o : Obj} (ho : o = .game ∨ g.Listed o) (o' : Obj) :
    Packed.whole o' ≠ packed g.known o := by
  rcases ho with rfl | ⟨id, hid⟩
  · nofun
  · rw [h.packed_eq hid]
    nofun

/-! ## Updates -/

/-- **A message whose objects all have ids.** -/
def plain (g : Game α) (call : (Obj → Packed) → Call α) : Msg α := ⟨call (packed g.known), []⟩

/-- **The call mentions nothing but these**, of the game's objects. -/
def Mentions (g : Game α) (call : (Obj → Packed) → Call α) : Prop :=
  ∀ m ∈ (call (packed g.known)).mentions, ∃ o, m = packed g.known o ∧ (o = .game ∨ g.Listed o)

/-- The constructor of a new entity. -/
def Entity.ctor (v : Entity) (id : ℕ) : Ctor α :=
  .entity v.kind (some id) v.name v.x v.y v.w v.h v.game [] v.count

/-- **Nothing refers to `e`** but, perhaps, its parent. -/
structure Game.Lone (g : Game α) (e : ℕ) : Prop where
  /-- Nobody holds it. -/
  held : ∀ p, (g.people p).held ≠ some e
  /-- It is no field. -/
  field : ∀ n, g.fields.get n ≠ some e
  /-- Nothing stands on it. -/
  parent : ∀ e', (g.entities e').parent ≠ some e
  /-- It stands on its parent only. -/
  child : ∀ e', e ∈ (g.entities e').children → (g.entities e).parent = some e'

theorem Sound.lone {fits : Kind → Kind → Prop} (h : Sound fits g) {e : ℕ}
    (hchildren : (g.entities e).children = []) (hby : (g.entities e).heldBy = none)
    (hkind : (g.entities e).kind ≠ .field) : g.Lone e where
  held p hp := by
    rw [h.hands.held_iff, hby] at hp
    cases hp
  field n hn := hkind (h.fields n e hn).2
  parent e' he' := by
    have hmem := (h.tree.child_iff e e').mpr he'
    rw [hchildren] at hmem
    exact absurd hmem List.not_mem_nil
  child e' := (h.tree.child_iff e' e).mp

/-- **One assignment, and what is broadcast of it.** -/
inductive Update (P : Policy) (L : Dict.Length Obj) (g : Game α)  :
    List (Msg α) → Game α → Prop where
  /-- Something is said. -/
  | quiet {call : Call α} (hcall : call.isText = true) :
      Update P L g [plain g (fun _ => call)] (g.say (fun _ => call))
  /-- `held` is set. -/
  | held {p : ℕ} {item : Option ℕ} (hp : g.Listed (.player p))
      (hitem : ∀ e, item = some e → g.Listed (.entity e)) :
      Update P L g [plain g (fun packed =>
        .set (packed (.player p)) .held (item.map (fun e => packed (.entity e))))]
        (g.withHeld p item)
  /-- `held_by` is set. -/
  | heldBy {e : ℕ} {who : Option ℕ} (he : g.Listed (.entity e))
      (hwho : ∀ p, who = some p → g.Listed (.player p)) :
      Update P L g [plain g (fun packed =>
        .set (packed (.entity e)) .heldBy (who.map (fun p => packed (.player p))))]
        (g.withHeldBy e who)
  /-- An entity that is no field is moved. -/
  | moved {e : ℕ} {parent : Option ℕ} {x y : Option ℚ} (he : g.Listed (.entity e))
      (hkind : (g.entities e).kind ≠ .field)
      (hnowhere : parent = none → (g.entities e).parent ≠ none → P.nowhere)
      (hparent : ∀ p, parent = some p → g.Listed (.entity p)) :
      Update P L g [plain g (movetoCall e parent x y)] (g.moved e parent x y)
  /-- An entity is taken from its parent, which nobody is told. -/
  | placed {e : ℕ} (hmay : P.nowhere) : Update P L g [] (g.placed e none none none)
  /-- An entity is made and registered. -/
  | created {v : Entity} (hv : v.Blank) (hnew : g.rObjects.get (.entity g.nextEntity) = none) :
      Update P L g [⟨.addObject (.known 0 .game) (.whole (.entity g.nextEntity)),
        [(.entity g.nextEntity, v.ctor (L.border g.objects + 1))]⟩] (g.created L v)
  /-- An object that is registered is registered again. -/
  | again {o : Obj} {id : ℕ} (ho : g.objects.get id = some o) :
      Update P L g [plain g (fun packed => .addObject (packed .game) (packed o))] (g.enrolled o id)
  /-- An entity is moved to nowhere, and taken from the tables. -/
  | deleted {e id : ℕ} (hid : g.objects.get id = some (.entity e))
      (hkind : (g.entities e).kind ≠ .field) (hmay : (g.entities e).parent ≠ none → P.nowhere)
      (hlone : g.Lone e) : Update P L g [plain g (movetoCall e none none none),
        plain g (fun packed => .deleteObject (packed .game) (packed (.entity e)))] (g.deleted e id)
  /-- A field gets its name. -/
  | named {name : Bytes} {f : ℕ} (hmay : P.fields) :
      Update P L g [] { g with fields := g.fields.set name f }
  /-- A player is made and registered. -/
  | seated {name : Bytes} {r b c : Value α} (hname : g.players.get name = none)
      (hnew : g.rObjects.get (.player g.nextPlayer) = none) :
      Update P L g [⟨.addObject (.known 0 .game) (.whole (.player g.nextPlayer)),
        [(.player g.nextPlayer, .player (some (L.border g.objects + 1)) name none r b c)]⟩]
        (g.seated name r b c (L.border g.objects + 1))
  /-- A player comes back. -/
  | returned {name : Bytes} {p : ℕ} {r b c : Value α} (hname : (g.people p).name = name)
      (hmay : g.returned p name r b c ≠ g → P.colours) : Update P L g [] (g.returned p name r b c)
  /-- A player is announced. -/
  | announced {p : ℕ} (hp : g.Listed (.player p)) :
      Update P L g [plain g (fun packed => .addPlayer (packed .game) (packed (.player p)))]
        (g.announced p)
  /-- A count changes, or whether a box is opened. -/
  | tweak {e : ℕ} (opened : Bool) (count : Count) :
      Update P L g [] (g.mapEntity e (fun v => { v with opened := opened, count := count }))
  /-- A script has been loaded. -/
  | load {name : Bytes} : Update P L g [] { g with loaded := g.loaded ++ [name] }

/-- **A sequence of updates**, and all they broadcast. -/
inductive Updates (P : Policy) (L : Dict.Length Obj) : Game α → List (Msg α) → Game α → Prop where
  /-- None. -/
  | nil (g : Game α) : Updates P L g [] g
  /-- One, and then others. -/
  | cons {g g₁ g' : Game α} {ms ms' : List (Msg α)} (hu : Update P L g ms g₁)
      (hus : Updates P L g₁ ms' g') : Updates P L g (ms ++ ms') g'

theorem Updates.single {ms : List (Msg α)} (hu : Update P L g ms g') : Updates P L g ms g' := by
  have h := Updates.cons hu (.nil g')
  rwa [List.append_nil] at h

theorem Updates.append {ms ms' : List (Msg α)} (h : Updates P L g ms g₁)
    (h' : Updates P L g₁ ms' g') : Updates P L g (ms ++ ms') g' := by
  induction h with
  | nil => exact h'
  | cons hu _ ih =>
    rw [List.append_assoc]
    exact .cons hu (ih h')

/-! ## What is sent -/

/-- **What is said of objects that have ids** is sent as it is. -/
theorem sent_say (hg : Numbered g) {call : (Obj → Packed) → Call α} (hm : Mentions g call) :
    (g.say call).sent = g.sent ++ [plain g call] := by
  refine congrArg (fun m => g.sent ++ [m]) (pack_of_known (fun o ho => ?_))
  obtain ⟨o', ho', hlisted⟩ := hm _ ho
  exact hg.not_whole hlisted o ho'

/-- What is not there is anything. -/
theorem forall_none {Q : ℕ → Prop} : ∀ e, none = some e → Q e := nofun

/-- What is said mentions the objects of its call. -/
theorem mentions_of_map {call : (Obj → Packed) → Call α} (os : List Obj)
    (hcall : ∀ packed, (call packed).mentions = os.map packed)
    (hos : ∀ o ∈ os, o = .game ∨ g.Listed o) : Mentions g call := by
  intro m hm
  rw [hcall] at hm
  obtain ⟨o, ho, rfl⟩ := List.mem_map.mp hm
  exact ⟨o, rfl, hos o ho⟩

theorem mentions_held {p : ℕ} {item : Option ℕ} (hp : g.Listed (.player p))
    (hitem : ∀ e, item = some e → g.Listed (.entity e)) : Mentions g (fun packed =>
      .set (packed (.player p)) .held (item.map (fun e => packed (.entity e)))) := by
  refine mentions_of_map (.player p :: item.toList.map .entity) (fun packed => ?_) (fun o ho => ?_)
  · cases item <;> rfl
  · rcases List.mem_cons.mp ho with rfl | ho
    · exact Or.inr hp
    · obtain ⟨e, he, rfl⟩ := List.mem_map.mp ho
      exact Or.inr (hitem e (Option.mem_toList.mp he))

theorem mentions_heldBy {e : ℕ} {who : Option ℕ} (he : g.Listed (.entity e))
    (hwho : ∀ p, who = some p → g.Listed (.player p)) : Mentions g (fun packed =>
      .set (packed (.entity e)) .heldBy (who.map (fun p => packed (.player p)))) := by
  refine mentions_of_map (.entity e :: who.toList.map .player) (fun packed => ?_) (fun o ho => ?_)
  · cases who <;> rfl
  · rcases List.mem_cons.mp ho with rfl | ho
    · exact Or.inr he
    · obtain ⟨p, hp, rfl⟩ := List.mem_map.mp ho
      exact Or.inr (hwho p (Option.mem_toList.mp hp))

theorem mentions_moveto {e : ℕ} {parent : Option ℕ} {x y : Option ℚ} (he : g.Listed (.entity e))
    (hparent : ∀ p, parent = some p → g.Listed (.entity p)) :
    Mentions g (movetoCall e parent x y) := by
  refine mentions_of_map (.entity e :: parent.toList.map .entity) (fun packed => ?_)
    (fun o ho => ?_)
  · cases parent <;> rfl
  · rcases List.mem_cons.mp ho with rfl | ho
    · exact Or.inr he
    · obtain ⟨p, hp, rfl⟩ := List.mem_map.mp ho
      exact Or.inr (hparent p (Option.mem_toList.mp hp))

/-- A method of the game's that is given an object. -/
theorem mentions_pair {o : Obj} (ho : g.Listed o) {call : (Obj → Packed) → Call α}
    (hcall : ∀ packed, (call packed).mentions = [packed .game, packed o]) : Mentions g call :=
  mentions_of_map [.game, o] hcall
    (List.forall_mem_cons.mpr ⟨Or.inl rfl, List.forall_mem_singleton.mpr (Or.inr ho)⟩)

theorem Mentions.sameObjects {call : (Obj → Packed) → Call α} (h : Mentions g call)
    (hs : SameObjects g g') : Mentions g' call := by
  unfold Mentions
  rw [hs.known]
  exact fun m hm => by
    obtain ⟨o, ho, hlisted⟩ := h m hm
    exact ⟨o, ho, hlisted.imp_right (hs.listed o).mpr⟩

/-- A text mentions nothing. -/
theorem mentions_text {call : Call α} (hcall : call.isText = true) :
    Mentions g (fun _ => call) := by
  cases call with
  | message _ => exact fun m hm => absurd hm List.not_mem_nil
  | chat _ _ => exact fun m hm => absurd hm List.not_mem_nil
  | _ => cases hcall

/-- Moving an entity, when nobody is told. -/
theorem SameObjects.placed (g : Game α) (self : ℕ) (parent : Option ℕ) (x y : Option ℚ) :
    SameObjects g (g.placed self parent x y) :=
  ⟨fun _ => rfl, fun _ => rfl, rfl, rfl, rfl, rfl, fun _ => rfl, fun _ => rfl, fun _ => rfl,
    fun _ => rfl, fun _ => rfl⟩

/-- What is said when fields have changed. -/
theorem sent_say_of_same (hg : Numbered g) (hs : SameObjects g g')
    {call : (Obj → Packed) → Call α} (hm : Mentions g call) :
    (g'.say call).sent = g'.sent ++ [plain g call] := by
  rw [sent_say (hg.sameObjects hs) (hm.sameObjects hs)]
  unfold plain
  rw [hs.known]

/-- The players when a new one has come. -/
theorem seated_people (name : Bytes) (r b c : Value α) (id p : ℕ) :
    (g.seated name r b c id).people p
      = if p = g.nextPlayer then ⟨name, some id, none, r, b, c⟩ else g.people p := by
  show ((g.born ⟨name, none, none, r, b, c⟩).enrolled (.player g.nextPlayer) id).people p = _
  rw [enrolled_people, born_people]
  rcases eq_or_ne p g.nextPlayer with rfl | hp
  · simp
  · simp [hp, hp.symm]

/-- **Every update keeps the ids in order.** -/
theorem Update.numbered (hg : Numbered g) {ms : List (Msg α)} (hu : Update P L g ms g') :
    Numbered g' := by
  cases hu with
  | quiet _ => exact hg.sameObjects (.say _ _)
  | held _ _ => exact hg.sameObjects (.withHeld _ _ _)
  | heldBy _ _ => exact hg.sameObjects (.withHeldBy _ _ _)
  | moved _ _ _ _ => exact hg.sameObjects (.moved _ _ _ _ _)
  | placed _ => exact ⟨hg.inverse, fun id o ho => by
      rw [← hg.id_of id o ho]
      cases o <;> rfl, hg.pos⟩
  | @created v hv hnew =>
    have hfree := objects_free L g
    refine ⟨hg.inverse.set hfree hnew, fun id o ho => ?_, ?_⟩
    · -- the id behind a border is nobody's, so that no id is given twice
      have ho' : (g.objects.set (L.border g.objects + 1) (.entity g.nextEntity)).get id = some o :=
        ho
      rw [Dict.get_set] at ho'
      split_ifs at ho' with hid
      · obtain rfl := Option.some.inj ho'
        show ((g.created L v).entities g.nextEntity).id = some id
        rw [created_self, hid]
      · rw [← hg.id_of id o ho']
        cases o with
        | game => rfl
        | player p => rfl
        | entity e =>
          refine congrArg Entity.id (created_of_ne L v (fun he => ?_))
          have hknown := (hg.inverse id _).mp ho'
          rw [he, hnew] at hknown
          cases hknown
    · show (g.objects.set _ _).get 0 = none
      rw [Dict.get_set_of_ne _ _ (Nat.succ_ne_zero _).symm, hg.pos]
  | again ho =>
    exact hg.sameObjects (sameLinks_enrolled (hg.id_of _ _ ho) ho
      ((hg.inverse _ _).mp ho)).toSameObjects
  | @deleted e id hid _ _ _ =>
    refine ⟨hg.inverse.erase hid, fun id' o ho => ?_, ?_⟩
    · have ho' : (g.objects.erase id).get id' = some o := ho
      rw [Dict.get_erase] at ho'
      split_ifs at ho'
      rw [← hg.id_of id' o ho']
      cases o <;> rfl
    · show (g.objects.erase id).get 0 = none
      rw [Dict.get_erase, hg.pos, ite_self]
  | named _ => exact ⟨hg.inverse, fun id o ho => by
      rw [← hg.id_of id o ho]
      cases o <;> rfl, hg.pos⟩
  | @seated name r b c _ hnew =>
    have hfree := objects_free L g
    refine ⟨hg.inverse.set hfree hnew, fun id o ho => ?_, ?_⟩
    · have ho' : (g.objects.set (L.border g.objects + 1) (.player g.nextPlayer)).get id = some o :=
        ho
      rw [Dict.get_set] at ho'
      split_ifs at ho' with hid
      · obtain rfl := Option.some.inj ho'
        show ((g.seated name r b c (L.border g.objects + 1)).people g.nextPlayer).id = some id
        rw [seated_people, if_pos rfl, hid]
      · rw [← hg.id_of id o ho']
        cases o with
        | game => rfl
        | entity e => rfl
        | player p =>
          have hne : p ≠ g.nextPlayer := fun hp => by
            have hknown := (hg.inverse id _).mp ho'
            rw [hp, hnew] at hknown
            cases hknown
          show ((g.seated name r b c (L.border g.objects + 1)).people p).id = _
          rw [seated_people, if_neg hne]
          rfl
    · show (g.objects.set _ _).get 0 = none
      rw [Dict.get_set_of_ne _ _ (Nat.succ_ne_zero _).symm, hg.pos]
  | returned hname _ => exact hg.sameObjects (.mapPlayer _ _ rfl hname.symm)
  | announced _ => exact hg.sameObjects (.say _ _)
  | tweak opened count =>
    exact hg.sameObjects (.mapEntity g _ (f := fun v => { v with opened := opened, count := count })
      (fun _ => rfl) (fun _ => rfl) (fun _ => rfl))
  | load => exact ⟨hg.inverse, fun id o ho => by
      rw [← hg.id_of id o ho]
      cases o <;> rfl, hg.pos⟩

/-- **What an update broadcasts** is what it says. -/
theorem Update.sent (hg : Numbered g) {ms : List (Msg α)} (hu : Update P L g ms g') :
    g'.sent = g.sent ++ ms := by
  cases hu with
  | quiet hcall => exact sent_say hg (mentions_text hcall)
  | held hp hitem => exact sent_say_of_same hg (.mapPlayer _ _ rfl rfl) (mentions_held hp hitem)
  | @heldBy e who he hwho =>
    exact sent_say_of_same hg (.mapEntity g e (f := fun v => { v with heldBy := who })
      (fun _ => rfl) (fun _ => rfl) (fun _ => rfl)) (mentions_heldBy he hwho)
  | @moved e parent x y he _ _ hparent =>
    exact sent_say_of_same hg (.placed g e parent x y) (mentions_moveto he hparent)
  | placed _ => exact (List.append_nil _).symm
  | @created v hv hnew =>
    refine (sent_enrolled _ _ _).trans ?_
    rw [enrollMessage_childless hv.children hnew]
    rfl
  | @again o id ho =>
    have hpacked := hg.packed_eq ho
    rw [sent_enrolled, enrollMessage_known (hg.known_eq ho)]
    show _ = g.sent ++ [⟨.addObject (.known 0 .game) (packed g.known o), []⟩]
    rw [hpacked]
  | @deleted e id hid _ _ _ =>
    have hm : Mentions g (fun packed => .deleteObject (packed .game) (packed (.entity e))) :=
      mentions_pair ⟨id, hid⟩ (fun _ => rfl)
    have hs := SameObjects.placed g e none none none
    refine (sent_say_of_same hg (hs.trans (.say _ _)) hm).trans ?_
    rw [sent_say_of_same hg hs (mentions_moveto ⟨id, hid⟩ forall_none), List.append_assoc]
    rfl
  | named _ => exact (List.append_nil _).symm
  | @seated name r b c _ hnew =>
    refine (sent_enrolled _ _ _).trans ?_
    rw [enrollMessage_player name r b c hnew]
    rfl
  | returned _ _ => exact (List.append_nil _).symm
  | announced hp => exact sent_say hg (mentions_pair hp (fun _ => rfl))
  | tweak _ _ => exact (List.append_nil _).symm
  | load => exact (List.append_nil _).symm

theorem Updates.numbered (hg : Numbered g) {ms : List (Msg α)} (h : Updates P L g ms g') :
    Numbered g' := by
  induction h with
  | nil => exact hg
  | cons hu _ ih => exact ih (hu.numbered hg)

theorem Updates.sent (hg : Numbered g) {ms : List (Msg α)} (h : Updates P L g ms g') :
    g'.sent = g.sent ++ ms := by
  induction h with
  | nil => exact (List.append_nil _).symm
  | cons hu _ ih => rw [ih (hu.numbered hg), hu.sent hg, List.append_assoc]

/-! ## Every change is a sequence of updates -/

section Change

variable {p item : ℕ}

theorem updates_pickedUp (hp : g.Listed (.player p)) (hitem : g.Listed (.entity item)) :
    ∃ ms, Updates P L g ms (g.pickedUp p item) := by
  have hitem' : ∀ e, some item = some e → g.Listed (.entity e) := fun e he =>
    Option.some.inj he ▸ hitem
  have hs := SameObjects.withHeld g p (some item)
  have hp' : ∀ q, some p = some q → (g.withHeld p (some item)).Listed (.player q) := fun q hq =>
    Option.some.inj hq ▸ (hs.listed _).mpr hp
  exact ⟨_, .cons (.held hp hitem') (.cons (.heldBy ((hs.listed _).mpr hitem) hp')
    (.single (.quiet rfl)))⟩

theorem updates_released (hp : g.Listed (.player p)) (hitem : g.Listed (.entity item)) :
    ∃ ms, Updates P L g ms (g.released p item) := by
  have hs := SameObjects.withHeld g p none
  exact ⟨_, .cons (.held hp forall_none)
    (.single (.heldBy ((hs.listed _).mpr hitem) forall_none))⟩

theorem updates_dropped {onto : ℕ} {x y : Option ℚ} (hp : g.Listed (.player p))
    (hitem : g.Listed (.entity item)) (hkind : (g.entities item).kind ≠ .field)
    (honto : g.Listed (.entity onto)) : ∃ ms, Updates P L g ms (g.dropped p item onto x y) := by
  obtain ⟨ms, hms⟩ := updates_released (P := P) (L := L) hp hitem
  have hs := sameObjects_released p item g
  have hmove : Update P L (g.released p item) _ ((g.released p item).moved item (some onto) x y) :=
    .moved ((hs.listed _).mpr hitem) (by rwa [hs.kind]) nofun (fun q hq =>
      Option.some.inj hq ▸ (hs.listed _).mpr honto)
  exact ⟨_, hms.append (.cons hmove (.single (.quiet rfl)))⟩

/-- **Every change is a sequence of updates**, if no script runs and fields
stand on nothing. -/
theorem updates_of_change (h : Sound P.fits g) (hP : ∀ a b, P.fits a b → a ≠ .field)
    (hscripts : ¬P.scripts) (hc : Change P L g g') : ∃ ms, Updates P L g ms g' := by
  have hplayer : ∀ p e, (g.people p).held = some e → g.Listed (.player p) := fun p e he => by
    refine (h.player_iff p).mpr (Nat.lt_of_not_le (fun hle => ?_))
    rw [h.hands.held_of_le hle] at he
    cases he
  have htoken : ∀ e, (g.entities e).kind.isToken = true → (g.entities e).kind ≠ .field := by
    intro e he hfield
    rw [hfield] at he
    cases he
  have hnew : g.rObjects.get (.entity g.nextEntity) = none := unknown_of_sound h
  cases hc with
  | say hcall => exact ⟨_, .single (.quiet hcall)⟩
  | pickup _ hp hitem _ _ _ => exact updates_pickedUp ((h.player_iff _).mpr hp) hitem
  | drop hheld honto _ =>
    obtain ⟨hitem, hkind⟩ := h.held _ _ hheld
    exact updates_dropped (hplayer _ _ hheld) hitem (htoken _ hkind) honto
  -- what is put back stands on the pile when it is deleted
  | @putBack p item pile id x y hmay hheld hpile hid hchildren hne =>
    obtain ⟨hitem, hkind⟩ := h.held _ _ hheld
    have hs := sameObjects_dropped p item pile x y g
    have hlone : (g.dropped p item pile x y).Lone item := by
      have htrue : Sound (fun _ _ => True) g := h.refit (fun _ _ _ => trivial)
      refine (htrue.dropped hheld hpile trivial).lone ?_ ?_ ?_
      · rw [dropped_children, hchildren]
        exact movedChildren_nil (fun hp => hne (Option.some.inj hp).symm)
      · rw [dropped_heldBy, if_pos rfl]
      · rw [hs.kind]
        exact htoken _ hkind
    obtain ⟨ms, hms⟩ := updates_dropped (P := P) (L := L) (x := x) (y := y) (hplayer _ _ hheld)
      hitem (htoken _ hkind) hpile
    exact ⟨_, hms.append (.single (.deleted (by rw [hs.objects, hid])
      (by rw [hs.kind]; exact htoken _ hkind) (fun _ => hmay) hlone))⟩
  | @letGo p item hheld _ =>
    have hs := SameObjects.withHeldBy g item none
    exact ⟨_, .cons (.heldBy (h.held _ _ hheld).1 forall_none)
      (.single (.held ((hs.listed _).mpr (hplayer _ _ hheld)) forall_none))⟩
  -- it is registered first, and put on something then
  | @spawn v p x y hv hp hfits _ =>
    have hkind : ((g.created L v).entities g.nextEntity).kind ≠ .field := by
      rw [created_self]
      exact hP _ _ hfits
    exact ⟨_, .cons (.created hv hnew) (.single (.moved ((created_listed L v g _).mpr (Or.inl rfl))
      hkind nofun (fun q hq => Option.some.inj hq ▸ (created_listed L v g _).mpr (Or.inr hp))))⟩
  | @take v p _ hv _ hp _ _ =>
    obtain ⟨ms, hms⟩ := updates_pickedUp (P := P) (L := L) (g := g.created L v) (p := p)
      ((created_listed L v g _).mpr (Or.inr ((h.player_iff _).mpr hp)))
      ((created_listed L v g (.entity g.nextEntity)).mpr (Or.inl rfl))
    exact ⟨_, .cons (.created hv hnew) hms⟩
  | stray _ hv _ _ => exact ⟨_, .single (.created hv hnew)⟩
  | delete hmay _ _ _ _ _ => exact absurd hmay hscripts
  | move hmay _ _ _ => exact absurd hmay hscripts
  | takeOut hmay _ _ => exact ⟨_, .single (.placed hmay)⟩
  | field hmay _ _ => exact ⟨_, .cons (.created (Kind.blank _ _) hnew) (.single (.named hmay))⟩
  | again ho => exact ⟨_, .single (.again ho)⟩
  | join hname _ =>
    have hnew' : g.rObjects.get (.player g.nextPlayer) = none := by
      rcases hid : g.rObjects.get (.player g.nextPlayer) with _ | id
      · rfl
      · exact absurd ((h.player_iff _).mp (h.listed_iff.mpr ⟨id, hid⟩)) (lt_irrefl _)
    exact ⟨_, .single (.seated hname hnew')⟩
  | back hp hmay => exact ⟨_, .single (.returned (h.players _ _ hp).2 hmay)⟩
  | announce hp => exact ⟨_, .single (.announced ((h.player_iff _).mpr (h.players _ _ hp).1))⟩
  | tweak opened count => exact ⟨_, .single (.tweak opened count)⟩
  | load => exact ⟨_, .single .load⟩

end Change

end Server

end Felt
