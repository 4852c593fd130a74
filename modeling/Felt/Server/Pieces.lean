import Felt.Server.Custody

/-!
# Where the pieces are

Every piece stands somewhere or is in somebody's hand – as long as nobody
takes a stone from a pile with a full hand, or leaves with a stone that was
not dropped yet. `Pile.takeItem` makes a stone before it asks whether the hand
it is for is empty, and if it is not the stone is registered and nowhere. A
stone that was taken has no parent until it is dropped, and when its holder
leaves it has none for good.

`Homes` says where things are, and every change that may lose nothing keeps
it; `Tended` adds who the holders are.

That a piece stands somewhere is one thing and that it stands under a field is
another. `Homes` is the first, and is kept change by change; the second follows
for any game that is sound, since whatever stands on something stands on something
of a higher rank, and what stands on nothing is a field or in a hand
(`Homes.endsIn`).

A deed is tidy or not by the state before it. Where a connection may end in it –
and that may be because of a request which raises – whatever the player holds has
to stand somewhere.
-/

namespace Felt

namespace Server

open Box (Point)

variable {P : Policy} {S : Site} {s s' : State (Point Obj)} {fuel : ℕ}

/-! ## Homes -/

/-- Boards that stand on a field. -/
def Kind.isTable : Kind → Bool
  | .chessBoard => true
  | .goBoard => true
  | _ => false

section Homes

variable {fits : Kind → Kind → Prop} {L : Dict.Length Obj} {g g' : Game (Point Obj)}

/-- **Everything has a home**: a board stands somewhere, and a token does or is
in a hand. -/
structure Homes (g : Game (Point Obj)) : Prop where
  /-- A board has a parent. -/
  table : ∀ e, g.Listed (.entity e) → (g.entities e).kind.isTable = true →
    (g.entities e).parent ≠ none
  /-- A token has a parent or is held. -/
  token : ∀ e, g.Listed (.entity e) → (g.entities e).kind.isToken = true →
    (g.entities e).parent ≠ none ∨ ∃ p, (g.people p).held = some e

/-- **Who may come to hold something that stands nowhere.** -/
def Loose (hand : ℕ → Prop) (g g' : Game (Point Obj)) : Prop :=
  ∀ p e, (g'.people p).held = some e → (g'.entities e).parent = none →
    hand p ∨ (g.people p).held = some e ∧ (g.entities e).parent = none

theorem Homes.sameLinks (h : Homes g) (hs : SameLinks g g') : Homes g' where
  table e he hk := by
    rw [hs.parent]
    rw [hs.kind] at hk
    exact h.table e ((hs.listed _).mp he) hk
  token e he hk := by
    rw [hs.parent]
    rw [hs.kind] at hk
    refine (h.token e ((hs.listed _).mp he) hk).imp_right (fun ⟨p, hp⟩ => ⟨p, ?_⟩)
    rw [hs.held, hp]

theorem SameLinks.loose (hs : SameLinks g g') (hand : ℕ → Prop) : Loose hand g g' := by
  intro p e hp he
  rw [hs.held] at hp
  rw [hs.parent] at he
  exact Or.inr ⟨hp, he⟩

theorem pickedUp_held (p item : ℕ) (g : Game (Point Obj)) (q : ℕ) :
    ((g.pickedUp p item).people q).held = if q = p then some item else (g.people q).held := by
  show ((g.grabbed p item).people q).held = _
  rw [grabbed_people]
  split_ifs <;> rfl

theorem pickedUp_parent (p item : ℕ) (g : Game (Point Obj)) (e : ℕ) :
    ((g.pickedUp p item).entities e).parent = (g.entities e).parent :=
  (withHeldBy_tree (g.withHeld p (some item)) item (some p) e).1

/-- **Homes are kept** when every entity but one has what it had, and that one,
if it has an id, has a home. -/
theorem Homes.kept (h : Homes g) (e₀ : ℕ)
    (hold : ∀ e, e ≠ e₀ → g'.Listed (.entity e) → g.Listed (.entity e)
      ∧ (g'.entities e).kind = (g.entities e).kind
      ∧ (g'.entities e).parent = (g.entities e).parent)
    (hheld : ∀ p e, e ≠ e₀ → (g.people p).held = some e → (g'.people p).held = some e)
    (hnew : g'.Listed (.entity e₀) → (g'.entities e₀).parent ≠ none
      ∨ (g'.entities e₀).kind.isTable = false ∧ ((g'.entities e₀).kind.isToken = true →
        ∃ p, (g'.people p).held = some e₀)) : Homes g' where
  table e he hk := by
    rcases eq_or_ne e e₀ with rfl | hne
    · refine (hnew he).elim id (fun hno => ?_)
      rw [hno.1] at hk
      cases hk
    · obtain ⟨hlisted, hkind, hparent⟩ := hold e hne he
      rw [hkind] at hk
      rw [hparent]
      exact h.table e hlisted hk
  token e he hk := by
    rcases eq_or_ne e e₀ with rfl | hne
    · exact (hnew he).imp_right (fun hno => hno.2 hk)
    · obtain ⟨hlisted, hkind, hparent⟩ := hold e hne he
      rw [hkind] at hk
      rw [hparent]
      exact (h.token e hlisted hk).imp_right (fun ⟨p, hp⟩ => ⟨p, hheld p e hne hp⟩)

/-- Tokens are no boards. -/
theorem Kind.isTable_of_isToken {k : Kind} (h : k.isToken = true) : k.isTable = false := by
  revert h
  cases k <;> decide

/-- **A token is picked up.** -/
theorem Homes.pickedUp (h : Homes g) {p item : ℕ} (htoken : (g.entities item).kind.isToken = true)
    (hempty : (g.people p).held = none) : Homes (g.pickedUp p item) := by
  have hs := sameObjects_pickedUp p item g
  refine h.kept item
    (fun e _ he => ⟨(hs.listed _).mp he, hs.kind e, pickedUp_parent p item g e⟩)
    (fun q e _ hq => ?_) (fun _ => Or.inr ⟨?_, fun _ => ⟨p, ?_⟩⟩)
  · rw [pickedUp_held, if_neg (fun hqp => ?_), hq]
    rw [hqp, hempty] at hq
    cases hq
  · rw [hs.kind]
    exact Kind.isTable_of_isToken htoken
  · rw [pickedUp_held, if_pos rfl]

theorem loose_pickedUp {hand : ℕ → Prop} {p : ℕ} (hp : hand p) (item : ℕ) :
    Loose hand g (g.pickedUp p item) := by
  intro q e hq he
  rw [pickedUp_held] at hq
  rw [pickedUp_parent] at he
  split_ifs at hq with hqp
  · rw [hqp]
    exact Or.inl hp
  · exact Or.inr ⟨hq, he⟩

theorem dropped_held (p item onto : ℕ) (x y : Option ℚ) (g : Game (Point Obj)) (q : ℕ) :
    ((g.dropped p item onto x y).people q).held = if q = p then none else (g.people q).held := by
  show ((g.released p item).people q).held = _
  rw [released_people]
  split_ifs <;> rfl

/-- **What is held is dropped.** -/
theorem Homes.dropped (h : Homes g) {p item onto : ℕ} {x y : Option ℚ}
    (hheld : (g.people p).held = some item) : Homes (g.dropped p item onto x y) := by
  have hs := sameObjects_dropped p item onto x y g
  refine h.kept item (fun e hne he => ⟨(hs.listed _).mp he, hs.kind e, ?_⟩)
    (fun q e hne hq => ?_) (fun _ => Or.inl ?_)
  · rw [dropped_parent, if_neg hne]
  · rw [dropped_held, if_neg (fun hqp => hne ?_), hq]
    rw [hqp, hheld] at hq
    exact (Option.some.inj hq).symm
  · rw [dropped_parent, if_pos rfl]
    nofun

theorem loose_dropped {hand : ℕ → Prop} {p item onto : ℕ} {x y : Option ℚ} :
    Loose hand g (g.dropped p item onto x y) := by
  intro q e hq he
  rw [dropped_held] at hq
  rw [dropped_parent] at he
  split_ifs at hq with hqp
  split_ifs at he
  exact Or.inr ⟨hq, he⟩

/-- **An entity is deleted.** -/
theorem Homes.deleted (h : Homes g) (hg : Sound fits g) {e id : ℕ}
    (hid : g.objects.get id = some (.entity e)) : Homes (g.deleted e id) := by
  have hlisted : ∀ i, (g.deleted e id).Listed (.entity i) → g.Listed (.entity i) ∧ i ≠ e := by
    intro i hi
    have hi' : (g.struck (.entity e) id).Listed (.entity i) := hi
    obtain ⟨hold, hne⟩ := (struck_listed hg hid _).mp hi'
    exact ⟨hold, fun h' => hne (by rw [h'])⟩
  refine h.kept e (fun i hne hi => ⟨(hlisted i hi).1, rfl, ?_⟩) (fun _ _ _ hp => hp)
    (fun he => absurd rfl (hlisted e he).2)
  show (if i = e then none else (g.entities i).parent) = _
  rw [if_neg hne]

/-- **What is held is put back.** -/
theorem Homes.putBack (h : Homes g) (hg : Sound fits g) {p item pile id : ℕ} {x y : Option ℚ}
    (hheld : (g.people p).held = some item) (hpile : g.Listed (.entity pile))
    (hid : g.objects.get id = some (.entity item)) :
    Homes ((g.dropped p item pile x y).deleted item id) := by
  have hsound : Sound (fun _ _ => True) g := hg.refit (fun _ _ _ => trivial)
  refine (h.dropped hheld).deleted (hsound.dropped hheld hpile trivial) ?_
  rw [(sameObjects_dropped p item pile x y g).objects, hid]

theorem loose_putBack {hand : ℕ → Prop} (hands : Hands g) {p item pile id : ℕ} {x y : Option ℚ}
    (hheld : (g.people p).held = some item) :
    Loose hand g ((g.dropped p item pile x y).deleted item id) := by
  intro q e hq he
  change ((g.dropped p item pile x y).people q).held = some e at hq
  rw [dropped_held] at hq
  split_ifs at hq with hqp
  have hne : e ≠ item := by
    rintro rfl
    rw [hands.held_iff] at hq hheld
    exact hqp (Option.some.inj (hq.symm.trans hheld))
  change (if e = item then none else ((g.dropped p item pile x y).entities e).parent) = none at he
  rw [if_neg hne, dropped_parent, if_neg hne] at he
  exact Or.inr ⟨hq, he⟩

/-- **What is held is let go** where it stands. -/
theorem Homes.letGo (h : Homes g) {p item : ℕ} (hheld : (g.people p).held = some item)
    (hparent : (g.entities item).parent ≠ none) : Homes (g.letGo p item) := by
  have hs : SameObjects g (g.letGo p item) :=
    (SameObjects.withHeldBy g item none).trans (.withHeld _ p none)
  have hp : ∀ e, ((g.letGo p item).entities e).parent = (g.entities e).parent :=
    fun e => (withHeldBy_tree g item none e).1
  refine h.kept item (fun e _ he => ⟨(hs.listed _).mp he, hs.kind e, hp e⟩)
    (fun q e hne hq => ?_) (fun _ => Or.inl ?_)
  · show (((g.withHeldBy item none).withHeld p none).people q).held = _
    rw [withHeld_people, if_neg (fun hqp => hne ?_)]
    · exact hq
    · rw [hqp, hheld] at hq
      exact (Option.some.inj hq).symm
  · rw [hp]
    exact hparent

theorem loose_letGo {hand : ℕ → Prop} (p item : ℕ) : Loose hand g (g.letGo p item) := by
  intro q e hq he
  rw [show ((g.letGo p item).entities e).parent = (g.entities e).parent from
    (withHeldBy_tree g item none e).1] at he
  change (((g.withHeldBy item none).withHeld p none).people q).held = some e at hq
  rw [withHeld_people] at hq
  split_ifs at hq
  exact Or.inr ⟨hq, he⟩

/-- The entities there were when another one has been made. -/
theorem created_old (L : Dict.Length Obj) (v : Entity) {e : ℕ}
    (hne : e ≠ g.nextEntity) (he : (g.created L v).Listed (.entity e)) :
    g.Listed (.entity e) ∧ (g.created L v).entities e = g.entities e :=
  ⟨((created_listed L v g _).mp he).resolve_left (fun h => hne (Obj.entity.inj h)),
    created_of_ne L v hne⟩

/-- Nobody holds an entity that was not made yet. -/
theorem Sound.held_ne_nextEntity (hg : Sound fits g) {p e : ℕ} (hp : (g.people p).held = some e) :
    e ≠ g.nextEntity := (hg.hands.made p e hp).2.ne

/-- **An entity is made and put somewhere.** -/
theorem Homes.spawned (h : Homes g) (v : Entity) (p : ℕ) (x y : Option ℚ) :
    Homes (g.spawned L v p x y) := by
  have hparent : ∀ e, ((g.spawned L v p x y).entities e).parent
      = if e = g.nextEntity then some p else ((g.created L v).entities e).parent :=
    fun _ => moved_parent _
  refine h.kept g.nextEntity (fun e hne he => ?_) (fun _ _ _ hq => hq) (fun _ => Or.inl ?_)
  · obtain ⟨hlisted, hsame⟩ := created_old L v hne he
    have hkind : ((g.spawned L v p x y).entities e).kind = ((g.created L v).entities e).kind := rfl
    rw [hparent, if_neg hne, hkind, hsame]
    exact ⟨hlisted, rfl, rfl⟩
  · rw [hparent, if_pos rfl]
    nofun

theorem loose_spawned {hand : ℕ → Prop} (hg : Sound fits g) (v : Entity) (p : ℕ)
    (x y : Option ℚ) : Loose hand g (g.spawned L v p x y) := by
  intro q e hq he
  have hq' : (g.people q).held = some e := hq
  have hne := hg.held_ne_nextEntity hq'
  have he' : (if e = g.nextEntity then some p else ((g.created L v).entities e).parent) = none :=
    (moved_parent e).symm.trans he
  rw [if_neg hne, created_of_ne L v hne] at he'
  exact Or.inr ⟨hq', he'⟩

/-- **A token is made and taken.** -/
theorem Homes.taken (h : Homes g) {v : Entity} {p : ℕ}
    (htoken : v.kind.isToken = true) (hempty : (g.people p).held = none) :
    Homes (g.taken L v p) := by
  have hs := sameObjects_pickedUp p g.nextEntity (g.created L v)
  refine h.kept g.nextEntity (fun e hne he => ?_) (fun q e hne hq => ?_)
    (fun _ => Or.inr ⟨?_, fun _ => ⟨p, ?_⟩⟩)
  · obtain ⟨hlisted, hsame⟩ := created_old L v hne ((hs.listed _).mp he)
    unfold Game.taken
    rw [pickedUp_parent, hs.kind, hsame]
    exact ⟨hlisted, rfl, rfl⟩
  · unfold Game.taken
    rw [pickedUp_held, if_neg (fun hqp => ?_)]
    · exact hq
    · rw [hqp, hempty] at hq
      cases hq
  · unfold Game.taken
    rw [hs.kind, created_self]
    exact Kind.isTable_of_isToken htoken
  · unfold Game.taken
    rw [pickedUp_held, if_pos rfl]

theorem loose_taken {hand : ℕ → Prop} (hg : Sound fits g) (v : Entity) {p : ℕ} (hp : hand p) :
    Loose hand g (g.taken L v p) := by
  intro q e hq he
  refine (loose_pickedUp (g := g.created L v) hp g.nextEntity q e hq he).imp_right ?_
  rintro ⟨hq', he'⟩
  have hheld : (g.people q).held = some e := hq'
  rw [created_of_ne L v (hg.held_ne_nextEntity hheld)] at he'
  exact ⟨hheld, he'⟩

/-- **A box is taken from its parent.** -/
theorem Homes.takenOut (h : Homes g) {e : ℕ} (hbox : (g.entities e).kind = .box) :
    Homes (g.placed e none none none) := by
  have hkind : ∀ i, ((g.placed e none none none).entities i).kind = (g.entities i).kind :=
    fun _ => rfl
  refine h.kept e (fun i hne hi => ⟨hi, rfl, ?_⟩) (fun _ _ _ hp => hp)
    (fun _ => Or.inr ⟨?_, ?_⟩)
  · show (if i = e then none else (g.entities i).parent) = _
    rw [if_neg hne]
  · rw [hkind, hbox]
    rfl
  · rw [hkind, hbox]
    nofun

theorem loose_takenOut {hand : ℕ → Prop} (hg : Sound fits g) {e : ℕ}
    (hbox : (g.entities e).kind = .box) : Loose hand g (g.placed e none none none) := by
  intro q i hq hi
  have hq' : (g.people q).held = some i := hq
  have hne : i ≠ e := by
    rintro rfl
    have htoken := (hg.held q i hq').2
    rw [hbox] at htoken
    cases htoken
  change (if i = e then none else (g.entities i).parent) = none at hi
  rw [if_neg hne] at hi
  exact Or.inr ⟨hq', hi⟩

/-- **A field is made.** -/
theorem Homes.opened (h : Homes g) (name : Bytes) : Homes (g.opened L name) := by
  refine h.kept g.nextEntity (fun e hne he => ?_) (fun _ _ _ hq => hq)
    (fun _ => Or.inr ⟨?_, ?_⟩)
  · obtain ⟨hlisted, hsame⟩ := created_old L _ hne he
    show _ ∧ ((g.created L _).entities e).kind = _ ∧ ((g.created L _).entities e).parent = _
    rw [hsame]
    exact ⟨hlisted, rfl, rfl⟩
  · show ((g.created L _).entities g.nextEntity).kind.isTable = false
    rw [created_self]
    rfl
  · show ((g.created L _).entities g.nextEntity).kind.isToken = true → _
    rw [created_self]
    nofun

theorem loose_opened {hand : ℕ → Prop} (hg : Sound fits g) (name : Bytes) :
    Loose hand g (g.opened L name) := by
  intro q e hq he
  have hq' : (g.people q).held = some e := hq
  change ((g.created L _).entities e).parent = none at he
  rw [created_of_ne L _ (hg.held_ne_nextEntity hq')] at he
  exact Or.inr ⟨hq', he⟩

/-- What players hold when another one has come. -/
theorem Sound.seated_held (hg : Sound fits g) (name : Bytes) (r b c : Value (Point Obj))
    (id p : ℕ) :
    ((g.seated name r b c id).people p).held = (g.people p).held := by
  refine ((enrolled_links (g := g.born ⟨name, none, none, r, b, c⟩) (.player g.nextPlayer) id 0
    p).2.2.2.2.1).trans ?_
  rw [born_people]
  split_ifs with hp
  · rw [hp, hg.hands.held_of_le le_rfl]
  · rfl

/-- **A player comes.** -/
theorem Homes.seated (h : Homes g) (hg : Sound fits g) {name : Bytes} {r b c : Value (Point Obj)}
    {id : ℕ} (hfree : g.objects.get id = none) : Homes (g.seated name r b c id) := by
  have hlisted : ∀ e, (g.seated name r b c id).Listed (.entity e) → g.Listed (.entity e) :=
    fun e he => ((enrolled_listed (g := g.born _) hfree _).mp he).resolve_left nofun
  refine h.kept g.nextEntity (fun e _ he => ⟨hlisted e he, rfl, rfl⟩) (fun q e _ hq => ?_)
    (fun he => absurd (hlisted _ he) (hg.fresh le_rfl).1)
  rw [hg.seated_held, hq]

/-- **A change keeps homes**, if nothing may be lost and scripts do not
interfere. -/
theorem Homes.change (h : Homes g) (hg : Sound P.fits g) (hloses : ¬P.loses) (hscripts : ¬P.scripts)
    (hc : Change P L g g') : Homes g' ∧ Loose P.hand g g' := by
  have hlinks : ∀ {g' : Game (Point Obj)}, SameLinks g g' → Homes g' ∧ Loose P.hand g g' :=
    fun hs => ⟨h.sameLinks hs, hs.loose P.hand⟩
  cases hc with
  | say _ => exact hlinks (sameLinks_say g _)
  | pickup hmay _ _ htoken hempty _ => exact ⟨h.pickedUp htoken hempty, loose_pickedUp hmay _⟩
  | drop hheld _ _ => exact ⟨h.dropped hheld, loose_dropped⟩
  | putBack _ hheld hpile hid _ _ =>
    exact ⟨h.putBack hg hheld hpile hid, loose_putBack hg.hands hheld⟩
  | letGo hheld hmay => exact ⟨h.letGo hheld (fun hp => hloses (hmay hp)), loose_letGo _ _⟩
  | spawn _ _ _ _ => exact ⟨h.spawned _ _ _ _, loose_spawned hg _ _ _ _⟩
  | take hmay _ htoken _ hempty _ => exact ⟨h.taken htoken hempty, loose_taken hg _ hmay⟩
  | stray hmay _ _ _ => exact absurd hmay hloses
  | delete hmay _ _ _ _ _ => exact absurd hmay hscripts
  | move hmay _ _ _ => exact absurd hmay hscripts
  | takeOut _ hbox _ => exact ⟨h.takenOut hbox, loose_takenOut hg hbox⟩
  | field _ _ _ => exact ⟨h.opened _, loose_opened hg _⟩
  | again ho => exact hlinks (sameLinks_enrolled (hg.id_of _ _ ho) ho ((hg.inverse _ _).mp ho))
  | join _ _ =>
    refine ⟨h.seated hg (objects_free L g), fun q e hq he => ?_⟩
    rw [hg.seated_held] at hq
    exact Or.inr ⟨hq, he⟩
  | back hp _ => exact hlinks (sameLinks_returned (hg.players _ _ hp).2 _ _ _)
  | announce _ => exact hlinks (sameLinks_say g _)
  | tweak opened count =>
    exact hlinks (sameLinks_mapEntity g _
      (f := fun v => { v with opened := opened, count := count })
      (fun _ => rfl) (fun _ => rfl) (fun _ => rfl) (fun _ => rfl) (fun _ => rfl) (fun _ => rfl))
  | load => exact hlinks ⟨⟨fun _ => rfl, fun _ => rfl, rfl, rfl, rfl, rfl, fun _ => rfl,
      fun _ => rfl, fun _ => rfl, fun _ => rfl, fun _ => rfl⟩, fun _ => rfl, fun _ => rfl,
      fun _ => rfl, fun _ => rfl⟩

/-- **A chain keeps homes.** -/
theorem Homes.chain (h : Homes g) (hg : Sound P.fits g) (hloses : ¬P.loses) (hscripts : ¬P.scripts)
    (hc : Chain P L g g') : Homes g' ∧ Loose P.hand g g' := by
  induction hc with
  | refl => exact ⟨h, fun p e hp he => Or.inr ⟨hp, he⟩⟩
  | tail hc hlast ih =>
    obtain ⟨hhomes, hloose⟩ := ih
    obtain ⟨hhomes', hloose'⟩ := hhomes.change (hg.chain hc) hloses hscripts hlast
    refine ⟨hhomes', fun p e hp he => ?_⟩
    rcases hloose' p e hp he with hhand | ⟨hp', he'⟩
    · exact Or.inl hhand
    · exact hloose p e hp' he'

end Homes

/-! ## Holders -/

/-- **Every piece is tended**: it has a home, and who holds one that stands
nowhere is there. -/
structure Tended (s : State (Point Obj)) : Prop where
  /-- The game is sound. -/
  sound : Sound Kind.Below s.game
  /-- Everything has a home. -/
  homes : Homes s.game
  /-- Who holds something that stands nowhere has a worker. -/
  holder : ∀ p e, (s.game.people p).held = some e → (s.game.entities e).parent = none →
    ∃ w, s.Registered w ∧ (s.workers w).player = some p
  /-- A worker with a player is logged in under its name. -/
  session : ∀ w p, s.Registered w → (s.workers w).player = some p →
    s.players.get (s.workers w).name = some w
  /-- The worker of a socket has that socket. -/
  client : ∀ k w, s.clients.get k = some w → (s.workers w).socket = k ∧ w < s.nextWorker

/-- Who is registered when one worker is not any more. -/
theorem registered_parted {w v : ℕ} (hw : s.Registered w) :
    (s.parted w).Registered v ↔ s.Registered v ∧ v ≠ w := by
  show (s.clients.erase (s.workers w).socket).get (s.workers v).socket = some v ↔ _
  rw [Dict.get_erase]
  split_ifs with hk
  · refine iff_of_false (by simp) (fun hv => hv.2 ?_)
    have hv' : s.clients.get (s.workers v).socket = some v := hv.1
    rw [hk] at hv'
    exact Option.some.inj (hv'.symm.trans hw)
  · exact (and_iff_left_of_imp (fun _ hvw => hk (by rw [hvw]))).symm

/-- What a worker without a player leaves when its socket has no worker. -/
theorem Tended.parted (h : Tended s) {w : ℕ} (hw : s.Registered w)
    (hguest : (s.workers w).player = none) : Tended (s.parted w) where
  sound := h.sound
  homes := h.homes
  holder p e hp he := by
    obtain ⟨v, hv, hvp⟩ := h.holder p e hp he
    refine ⟨v, (registered_parted hw).mpr ⟨hv, ?_⟩, hvp⟩
    rintro rfl
    rw [hguest] at hvp
    cases hvp
  session v p hv hp := h.session v p ((registered_parted hw).mp hv).1 hp
  client k v hv := by
    change (s.clients.erase (s.workers w).socket).get k = some v at hv
    rw [Dict.get_erase] at hv
    split_ifs at hv
    exact h.client k v hv

/-- **What a method of the game's leaves**: who may have taken something is
there. -/
theorem Tended.settle {L : Dict.Length Obj} {g : Game (Point Obj)} (h : Tended s)
    (hP : P.fits = Kind.Below) (hloses : ¬P.loses) (hscripts : ¬P.scripts)
    (hc : Chain P L s.game g)
    (hhand : ∀ p, P.hand p → ∃ w, s.Registered w ∧ (s.workers w).player = some p) :
    Tended (s.settle g) := by
  have hsound : Sound P.fits s.game := hP ▸ h.sound
  have hs := SameTables.settle s g
  obtain ⟨hhomes, hloose⟩ := h.homes.chain hsound hloses hscripts hc
  refine ⟨hP ▸ (hsound.chain hc).sameLinks (sameLinks_settled g),
    hhomes.sameLinks (sameLinks_settled g), fun p e hp he => ?_, fun w p hw hp => ?_,
    fun k w hw => ?_⟩
  · obtain ⟨w, hw, hwp⟩ := (hloose p e hp he).elim (hhand p)
      (fun hold => h.holder p e hold.1 hold.2)
    exact ⟨w, hs.registered.mpr hw, (hs.player w).trans hwp⟩
  · rw [hs.player] at hp
    rw [hs.name, hs.players]
    exact h.session w p (hs.registered.mp hw) hp
  · rw [hs.clients] at hw
    rw [hs.socket, hs.nextWorker]
    exact h.client k w hw

/-- **A connection ends**, and nothing is lost. -/
theorem Tended.left {L : Dict.Length Obj} {w : ℕ} (h : Tended s) (hw : s.Registered w)
    (hP : P.fits = Kind.Below) (hloses : ¬P.loses) (hscripts : ¬P.scripts)
    (hhand : ∀ p, P.hand p → (s.workers w).player = some p) (hl : Left P L w s s') :
    Tended s' := by
  cases hl with
  | guest hname =>
    have hguest : (s.workers w).player = none := Option.eq_none_iff_forall_ne_some.mpr
      (fun p hp => by
        rw [h.session w p hw hp] at hname
        cases hname)
    have hparted := h.parted hw hguest
    exact ⟨hparted.sound, hparted.homes, hparted.holder, hparted.session, hparted.client⟩
  | impostor _ hguest => exact h.parted hw hguest
  | @player p g _ hp hc hempty =>
    have hs := SameTables.settle (s.parted w) g
    obtain ⟨hhomes, hloose⟩ := h.homes.chain (hP ▸ h.sound) hloses hscripts hc
    have hsound : Sound P.fits g := (hP ▸ h.sound : Sound P.fits s.game).chain hc
    have hreg : ∀ v, ((s.parted w).settle g).Registered v ↔ s.Registered v ∧ v ≠ w :=
      fun v => hs.registered.trans (registered_parted hw)
    refine ⟨hP ▸ hsound.sameLinks (sameLinks_settled g), hhomes.sameLinks (sameLinks_settled g),
      fun q e hq he => ?_, fun v q hv hq => ?_, fun k v hv => ?_⟩
    · -- nobody holds anything for the player who leaves
      have hqp : q ≠ p := by
        rintro rfl
        have hq' : (g.people q).held = some e := hq
        rw [hempty] at hq'
        cases hq'
      rcases hloose q e hq he with hhand' | ⟨hq', he'⟩
      · exact absurd (Option.some.inj ((hhand q hhand').symm.trans hp)) hqp
      · obtain ⟨v, hv, hvq⟩ := h.holder q e hq' he'
        refine ⟨v, (hreg v).mpr ⟨hv, ?_⟩, (hs.player v).trans hvq⟩
        rintro rfl
        exact hqp (Option.some.inj (hvq.symm.trans hp))
    · obtain ⟨hv', hne⟩ := (hreg v).mp hv
      have hq' : (s.workers v).player = some q := (hs.player v).symm.trans hq
      have hvname := h.session v q hv' hq'
      show (((s.parted w).settle g).players.erase (s.workers w).name).get
        (((s.parted w).settle g).workers v).name = some v
      rw [hs.name, hs.players, Dict.get_erase_of_ne _ (fun hn => hne ?_)]
      · exact hvname
      · change (s.workers v).name = (s.workers w).name at hn
        rw [hn, h.session w p hw hp] at hvname
        exact (Option.some.inj hvname).symm
    · change ((s.parted w).settle g).clients.get k = some v at hv
      rw [hs.clients] at hv
      change (s.clients.erase (s.workers w).socket).get k = some v at hv
      rw [Dict.get_erase] at hv
      split_ifs at hv
      show (((s.parted w).settle g).workers v).socket = k ∧ v < ((s.parted w).settle g).nextWorker
      rw [hs.socket, hs.nextWorker]
      exact h.client k v hv

/-- **Somebody logs in**, whose worker has nothing to lose. -/
theorem Tended.welcomed {L : Dict.Length Obj} {w p : ℕ} {name : Bytes} {g : Game (Point Obj)}
    (h : Tended s) (hP : P.fits = Kind.Below) (hloses : ¬P.loses)
    (hscripts : ¬P.scripts) (hhand : ∀ p, ¬P.hand p) (hfree : s.players.get name = none)
    (hsafe : HandSafe P s w) (hc : Chain P L s.game g) : Tended (s.welcomed w p name g) := by
  obtain ⟨hhomes, hloose⟩ := h.homes.chain (hP ▸ h.sound) hloses hscripts hc
  have hlinks : SameLinks g (s.welcomed w p name g).game :=
    ⟨⟨fun _ => rfl, fun _ => rfl, rfl, rfl, rfl, rfl, fun _ => rfl, fun _ => rfl, fun _ => rfl,
      fun _ => rfl, fun _ => rfl⟩, fun _ => rfl, fun _ => rfl, fun _ => rfl, fun _ => rfl⟩
  have hsound : Sound P.fits g := (hP ▸ h.sound : Sound P.fits s.game).chain hc
  refine ⟨hP ▸ hsound.sameLinks hlinks, hhomes.sameLinks hlinks, fun q e hq he => ?_,
    fun v q hv hq => ?_, fun k v hv => ?_⟩
  · rw [hlinks.held] at hq
    rw [hlinks.parent] at he
    obtain ⟨hq', he'⟩ := (hloose q e hq he).resolve_left (hhand q)
    obtain ⟨v, hv, hvq⟩ := h.holder q e hq' he'
    refine ⟨v, (welcomed_registered s w p name g v).mpr hv, ?_⟩
    rw [welcomed_player, if_neg, hvq]
    rintro rfl
    exact hloses (hsafe q e hvq hq' he')
  · rw [welcomed_player] at hq
    rw [welcomed_name, welcomed_players]
    split_ifs at hq ⊢ with hvw
    · rw [hvw]
      exact Dict.get_set_self _ _ _
    · have hv' := h.session v q ((welcomed_registered s w p name g v).mp hv) hq
      rw [Dict.get_set_of_ne _ _ (fun hn => ?_), hv']
      rw [hn, hfree] at hv'
      cases hv'
  · rw [welcomed_clients] at hv
    rw [welcomed_socket, welcomed_nextWorker]
    exact h.client k v hv

/-- **Somebody connects.** -/
theorem Tended.joined {socket : ℕ} {peer : Bytes} (h : Tended s)
    (hfresh : s.clients.get socket = none) (hj : Joined s s' socket peer) : Tended s' := by
  have hold : ∀ v, v < s.nextWorker → s'.workers v = s.workers v := fun v hv => hj.worker v hv.ne
  -- the socket is a new one, so nobody's entry is overwritten
  have hreg : ∀ v, s.Registered v → s'.Registered v := fun v hv => by
    have hlt := (h.client _ v hv).2
    unfold State.Registered
    rw [hold v hlt, hj.clients, Dict.get_set_of_ne _ _ (fun hk => ?_)]
    · exact hv
    · have hv' : s.clients.get (s.workers v).socket = some v := hv
      rw [hk, hfresh] at hv'
      cases hv'
  refine ⟨hj.game ▸ h.sound, hj.game ▸ h.homes, fun p e hp he => ?_, fun v p hv hp => ?_,
    fun k v hv => ?_⟩
  · rw [hj.game] at hp he
    obtain ⟨v, hv, hvp⟩ := h.holder p e hp he
    refine ⟨v, hreg v hv, ?_⟩
    rw [hold v (h.client _ v hv).2, hvp]
  · have hne : v ≠ s.nextWorker := by
      rintro rfl
      rw [hj.guest] at hp
      cases hp
    have hv' : s.Registered v := by
      unfold State.Registered at hv ⊢
      rw [hj.worker v hne, hj.clients, Dict.get_set] at hv
      split_ifs at hv
      · exact absurd (Option.some.inj hv).symm hne
      · exact hv
    rw [hj.worker v hne] at hp ⊢
    rw [hj.players]
    exact h.session v p hv' hp
  · rw [hj.clients, Dict.get_set] at hv
    rw [hj.nextWorker]
    split_ifs at hv with hk
    · obtain rfl := Option.some.inj hv
      rw [hj.guest, hk]
      exact ⟨rfl, Nat.lt_succ_self _⟩
    · have hv' := h.client k v hv
      rw [hold v hv'.2]
      exact ⟨hv'.1, hv'.2.trans (Nat.lt_succ_self _)⟩

theorem Tended.popped {w : ℕ} (h : Tended s) : Tended (s.popped w) := by
  have hs := SameTables.mapQueue s w (List.drop 1)
  refine ⟨h.sound, h.homes, fun p e hp he => ?_, fun v p hv hp => ?_, fun k v hv => ?_⟩
  · obtain ⟨v, hv, hvp⟩ := h.holder p e hp he
    exact ⟨v, hs.registered.mpr hv, (hs.player v).trans hvp⟩
  · exact (hs.name v).symm ▸ h.session v p (hs.registered.mp hv) ((hs.player v).symm.trans hp)
  · exact (hs.socket v).symm ▸ h.client k v hv

/-! ## Deeds that lose nothing -/

/-- **What the player of a worker holds stands somewhere.** -/
def State.HandHome (s : State (Point Obj)) (w : ℕ) : Prop :=
  ∀ p e, (s.workers w).player = some p → (s.game.people p).held = some e →
    (s.game.entities e).parent ≠ none

/-- **A deed that loses nothing**: an item is taken from a pile with an empty
hand, and whoever leaves – or logs in again – has nothing in their hand that
stands nowhere. -/
def Deed.Tidy (s : State (Point Obj)) : Deed → Prop
  | .session (.connect _ _) => True
  | .session (.login w _ _ _ _ _) => s.HandHome w
  | .session (.chat _ _) => True
  | .session (.disconnect w) => s.HandHome w
  | .act w e method x y => (method = .takeItem → (s.game.entities e).kind = .pile →
      (s.game.entities e).count.isPositive = true →
        ∃ p, (s.workers w).player = some p ∧ (s.game.people p).held = none)
    ∧ (¬Fit s.game e method (s.workers w).player x y → s.HandHome w)
  | .transmit w accepted => accepted = false → (s.workers w).sendq ≠ [] → s.HandHome w

instance (s : State (Point Obj)) (w : ℕ) : Decidable (s.HandHome w) :=
  decidable_of_iff (∀ p ∈ (s.workers w).player, ∀ e ∈ (s.game.people p).held,
    (s.game.entities e).parent ≠ none)
    ⟨fun h p e hp he => h p hp e he, fun h p hp e he => h p e hp he⟩

instance : (d : Deed) → (s : State (Point Obj)) → Decidable (d.Tidy s)
  | .session (.connect _ _), _ => .isTrue trivial
  | .session (.login w _ _ _ _ _), s => inferInstanceAs (Decidable (s.HandHome w))
  | .session (.chat _ _), _ => .isTrue trivial
  | .session (.disconnect w), s => inferInstanceAs (Decidable (s.HandHome w))
  | .act w e method x y, s => inferInstanceAs (Decidable ((method = .takeItem →
      (s.game.entities e).kind = .pile → (s.game.entities e).count.isPositive = true →
        ∃ p ∈ (s.workers w).player, (s.game.people p).held = none)
    ∧ (¬Fit s.game e method (s.workers w).player x y → s.HandHome w)))
  | .transmit w accepted, s => inferInstanceAs (Decidable (accepted = false →
      (s.workers w).sendq ≠ [] → s.HandHome w))

/-- **What the shipped methods do when nothing may be lost**, and only `who`
takes something. -/
def Policy.tidy (who : Option ℕ) : Policy :=
  { Policy.shipped with
    loses := False
    hand := fun p => who = some p }

/-- Who takes something. -/
def Deed.asker (s : State (Point Obj)) : Deed → Option ℕ
  | .act w _ _ _ _ => (s.workers w).player
  | _ => none

theorem State.HandHome.handSafe {w : ℕ} (h : s.HandHome w) (who : Option ℕ) :
    HandSafe (Policy.tidy who) s w := fun p e hp he hparent => h p e hp he hparent

/-- **A tidy deed makes changes that lose nothing.** -/
theorem Deed.Tidy.may {d : Deed} (h : d.Tidy s) : d.May (Policy.tidy (d.asker s)) S s := by
  have hcomes : ∀ name r g b, Comes (Policy.tidy none) S.length s.game name r g b :=
    fun _ _ _ _ => ⟨fun _ => trivial, fun _ _ _ => trivial⟩
  cases d with
  | session e =>
    cases e with
    | connect _ _ => trivial
    | login w name _ r g b =>
      have hsafe : HandSafe (Policy.tidy none) s w := State.HandHome.handSafe h none
      cases name with
      | string name => exact ⟨hcomes name r g b, hsafe⟩
      | _ => exact hsafe
    | chat _ _ => trivial
    | disconnect w => exact State.HandHome.handSafe h none
  | act w e method x y =>
    obtain ⟨htake, hfit⟩ := h
    exact ⟨⟨fun _ _ _ _ _ => ⟨trivial, bare_of_below rfl⟩,
      fun hm hk hcount => ⟨trivial, Or.inl (htake hm hk hcount)⟩,
      fun _ _ _ _ _ _ => ⟨fun _ => trivial, fun _ => ⟨trivial, fun _ _ => trivial⟩⟩⟩,
      fun _ hp => hp,
      fun hnot => (hfit hnot).handSafe _⟩
  | transmit w accepted => exact fun ha hq => State.HandHome.handSafe (h ha hq) none

/-- **Every piece stays tended**, whatever is done that loses nothing. -/
theorem Tended.done {d : Deed} (h : Tended s) (hd : d.Possible s) (htidy : d.Tidy s)
    (hdone : Done (Policy.tidy (d.asker s)) S s d s') : Tended s' := by
  have hloses : ∀ who, ¬(Policy.tidy who).loses := fun _ => id
  have hscripts : ∀ who, ¬(Policy.tidy who).scripts := fun _ => id
  have hnobody : ∀ p, ¬(Policy.tidy none).hand p := fun p hp => by
    change none = some p at hp
    cases hp
  cases hdone with
  | joined hj => exact h.joined hd.2 hj
  | missed => exact ⟨h.sound, h.homes, h.holder, h.session, h.client⟩
  | refused hl => exact h.left hd rfl (hloses _) (hscripts _) (fun p hp => absurd hp (hnobody p)) hl
  | welcomed _ hfree hc _ =>
    exact h.welcomed rfl (hloses _) (hscripts _) hnobody hfree
      (State.HandHome.handSafe htidy _) hc
  | said =>
    exact h.settle (P := Policy.tidy none) (L := S.length) rfl (hloses _) (hscripts _)
      (.single (.say rfl)) (fun p hp => absurd hp (hnobody p))
  | left hl => exact h.left hd rfl (hloses _) (hscripts _) (fun p hp => absurd hp (hnobody p)) hl
  | @acted w _ _ _ _ _ hc =>
    exact h.settle rfl (hloses _) (hscripts _) hc (fun p hp => ⟨w, hd.1, hp⟩)
  | @failed w _ _ _ _ g _ _ hc _ hl =>
    have hs := SameTables.settle s g
    refine (h.settle rfl (hloses _) (hscripts _) hc (fun p hp => ⟨w, hd.1, hp⟩)).left
      (hs.registered.mpr hd.1) rfl (hloses _) (hscripts _) (fun p hp => ?_) hl
    rw [hs.player]
    exact hp
  | idle _ => exact h
  | sent _ => exact h.popped
  | @broken w _ _ hl =>
    have hs := SameTables.mapQueue s w (List.drop 1)
    exact h.popped.left (hs.registered.mpr hd) rfl (hloses _) (hscripts _)
      (fun p hp => absurd hp (hnobody p)) hl

/-! ## Runs that lose nothing -/

/-- **Every piece is kept**: it is in the hand of a player who is there, or it
stands on something that has it among its children, and the way up from it
ends at a field. -/
def Kept (s : State (Point Obj)) : Prop :=
  ∀ e, s.game.Listed (.entity e) → (s.game.entities e).kind.isToken = true →
    (∃ w p, s.Registered w ∧ (s.workers w).player = some p ∧ (s.game.people p).held = some e)
      ∨ (∃ q, (s.game.entities e).parent = some q ∧ e ∈ (s.game.entities q).children)
        ∧ Forest.EndsIn s.game.parents
          (fun f => s.game.Listed (.entity f) ∧ (s.game.entities f).kind = .field) e

/-- **The way up ends at a field**, from whatever stands on something. -/
theorem Homes.endsIn {g : Game (Point Obj)} (h : Homes g) (hg : Sound Kind.Below g) {e q : ℕ}
    (hq : (g.entities e).parent = some q) :
    Forest.EndsIn g.parents (fun f => g.Listed (.entity f) ∧ (g.entities f).kind = .field) e := by
  -- by induction on how many ranks there are above
  induction hn : 3 - (g.entities e).kind.rank using Nat.strong_induction_on generalizing e q with
  | _ n ih =>
    obtain ⟨-, hlisted, hrank, hpile⟩ := hg.parent e q hq
    refine .up hq ?_
    rcases hparent : (g.entities q).parent with _ | r
    · refine .root hparent ⟨hlisted, ?_⟩
      have htable := h.table q hlisted
      rw [hparent] at htable
      revert htable hrank hpile
      cases (g.entities q).kind <;> simp [Kind.isTable, Kind.rank]
    · have hle : (g.entities q).kind.rank ≤ 3 := by
        cases (g.entities q).kind <;> decide
      exact ih _ (by omega) hparent rfl

theorem Tended.kept (h : Tended s) : Kept s := by
  intro e he htoken
  rcases hparent : (s.game.entities e).parent with _ | q
  · obtain ⟨p, hp⟩ := (h.homes.token e he htoken).resolve_left (fun hno => hno hparent)
    obtain ⟨w, hw, hwp⟩ := h.holder p e hp hparent
    exact Or.inl ⟨w, p, hw, hwp, hp⟩
  · exact Or.inr ⟨⟨q, rfl, (h.sound.tree.child_iff q e).mpr hparent⟩,
      h.homes.endsIn h.sound hparent⟩

/-- A server that starts has everything on its fields. -/
theorem tended_opening (S : Site) (games : List Bytes) : Tended (State.opening S games) := by
  obtain ⟨g, hg, hstart⟩ := start_sound (α := Point Obj) (P := Policy.tidy none) S.length games
    (hosts_of_below rfl) trivial (fun _ => trivial)
  have hempty : Homes (Game.empty : Game (Point Obj)) :=
    ⟨fun e ⟨_, he⟩ => absurd he nofun, fun e ⟨_, he⟩ => absurd he nofun⟩
  obtain ⟨hhomes, hloose⟩ := hempty.chain (sound_empty _) id id hg.chain
  have hgame : (State.opening S games).game = { g with sent := [] } := hstart
  have hlinks : SameLinks g (State.opening S games).game := hgame ▸ sameLinks_settled g
  refine ⟨hg.sound.sameLinks hlinks, hhomes.sameLinks hlinks, fun p e hp he => ?_,
    fun _ _ hw => absurd hw nofun, fun _ _ hw => absurd hw nofun⟩
  rw [hlinks.held] at hp
  rw [hlinks.parent] at he
  rcases hloose p e hp he with hhand | ⟨hp', -⟩
  · cases hhand
  · cases hp'

/-- **No piece is ever lost in a run whose deeds are tidy.** -/
theorem kept_of_played (S : Site) (fuel : ℕ) (games : List Bytes) (s : State (Point Obj))
    (hs : Played S fuel (fun d s => d.Tidy s) (State.opening S games) s) : Kept s := by
  have hinv : Manned Policy.shipped s ∧ Tended s := by
    induction hs with
    | start =>
      exact ⟨manned_opening S games (hosts_of_below rfl) trivial (fun _ => trivial),
        tended_opening S games⟩
    | deed d _ hd htidy hl ih =>
      obtain ⟨hmanned, htended⟩ := ih
      exact ⟨hmanned.done (done_of_leaves (hosts_of_below rfl) hmanned.sound hmanned.staff hd
          (may_shipped d _) hl),
        htended.done hd htidy (done_of_leaves (hosts_of_below rfl) htended.sound hmanned.staff hd
          htidy.may hl)⟩
  exact hinv.2.kept

/-- A player opens the go box, takes a stone from a bowl with an empty hand,
drops it on the board, picks it up again and leaves. -/
theorem kept_of_dropped : ∃ s : State (Point Obj), s.game.Listed (.entity 6)
    ∧ (s.game.entities 6).kind = .goPiece ∧ (s.game.entities 6).parent = some 3
    ∧ s.clients.get 0 = none ∧ Kept s := by
  obtain ⟨s, hs, hlisted, hkind, hparent, hleft⟩ := exists_played (fun d s => d.Tidy s)
    Site.plain 5 (State.opening Site.plain [bytes "go"])
    [.session (.connect 0 (some [])),
      .session (.login 0 (.string (bytes "a")) .nil .nil .nil .nil),
      .act 0 1 .openBox none none, .act 0 4 .takeItem none none,
      .act 0 3 .drop (some 20) (some 20), .act 0 6 .pickup none none,
      .session (.disconnect 0)]
    (Q := fun s => s.game.Listed (.entity 6) ∧ (s.game.entities 6).kind = .goPiece
      ∧ (s.game.entities 6).parent = some 3 ∧ s.clients.get 0 = none) (by decide +kernel)
  exact ⟨s, hlisted, hkind, hparent, hleft, kept_of_played Site.plain 5 [bytes "go"] s hs⟩

/-- A player opens the go box, takes a stone from a bowl, and leaves. -/
def takeAndLeave : List Deed :=
  [.session (.connect 0 (some [])),
    .session (.login 0 (.string (bytes "a")) .nil .nil .nil .nil),
    .act 0 1 .openBox none none,
    .act 0 4 .takeItem none none,
    .session (.disconnect 0)]

/-- **A stone that is not dropped is lost** when its holder leaves. -/
theorem not_kept :
    ¬ ∀ s, Played Site.plain 5 (fun _ _ => True) (State.opening Site.plain [bytes "go"]) s →
      Kept s := by
  intro h
  obtain ⟨s, hs, hlisted, hkind, hparent, hby⟩ := exists_played (fun _ _ => True) Site.plain 5
    (State.opening Site.plain [bytes "go"]) takeAndLeave
    (Q := fun s => s.game.Listed (.entity 6) ∧ (s.game.entities 6).kind = .goPiece
      ∧ (s.game.entities 6).parent = none ∧ (s.game.entities 6).heldBy = none)
    (by decide +kernel)
  have hmanned : Manned Policy.shipped s :=
    (manned_opening _ _ (hosts_of_below rfl) trivial (fun _ => trivial)).played (hosts_of_below rfl)
      (fun d s _ => may_shipped d s) hs
  rcases h s hs 6 hlisted (by rw [hkind]; rfl) with ⟨w, p, -, -, hp⟩ | ⟨⟨q, hq, -⟩, -⟩
  · rw [hmanned.sound.hands.held_iff, hby] at hp
    cases hp
  · rw [hparent] at hq
    cases hq

end Server

end Felt
