import Felt.Client.Replication
import Felt.Server.Linked

/-!
# What a client has of hands and colours

A client that is in step has, of every player, the hand and the colours, and
the table of players. Of an entity it knows who holds it, unless it came while
that was so: a snapshot does not say. All of this it is told as it changes, but
for the colours of a player who comes back.

A player is in the game's table a moment before they are announced, so that
the client's table may lack somebody in between.

What is portrayed are relations between objects, so a fact about a hand is one
about two images, and an update of one of them must not be mistaken for one of
another. That images are different for different objects is what that takes
(`Indexed.image_inj`).

Colours are left out of the general statement, as a player who comes back may
bring others and nobody is told. Where nobody does, they are the same.
-/

namespace Felt

namespace Client

open Box (Point)

open Server (Game Obj Kind Msg Numbered Policy Sound Site Deed Stretch)

variable {α : Type} {g g' : Game α} {c c' : Model α} {P : Policy} {L : Dict.Length Obj}

/-! ## Images -/

/-- What is found under the same id. -/
theorem image_of_objects (hg : Numbered g) (hg' : Numbered g') {id : ℕ} {o : Obj}
    (ho : g.objects.get id = some o) (ho' : g'.objects.get id = some o)
    (hc : c'.objects.get id = c.objects.get id) : c'.image g' o = c.image g o := by
  rw [image_of_listed hg' ho', image_of_listed hg ho, hc]

theorem image_congr (hknown : g'.known = g.known)
    (hc : ∀ id, c'.objects.get id = c.objects.get id) (o : Obj) :
    c'.image g' o = c.image g o := by
  unfold Model.image
  rw [hknown, funext hc]

/-- **No two objects have one mirror.** -/
theorem Indexed.image_inj (h : Indexed g c) (hg : Numbered g) {o o' : Obj} (ho : g.Listed o)
    (ho' : g.Listed o') (heq : c.image g o = c.image g o') : o = o' := by
  obtain ⟨id, hid⟩ := ho
  obtain ⟨id', hid'⟩ := ho'
  obtain ⟨a, ha, -, -, hof⟩ := h.image hg hid
  obtain ⟨a', ha', -, -, hof'⟩ := h.image hg hid'
  rw [ha, ha'] at heq
  obtain rfl := Ref.mirror.inj heq
  exact hof.object.symm.trans hof'.object

theorem Indexed.lt_next (h : Indexed g c) (hg : Numbered g) {o : Obj} {a : ℕ} (ho : g.Listed o)
    (ha : c.image g o = .mirror a) : a < c.next := by
  obtain ⟨id, hid⟩ := ho
  obtain ⟨b, hb, -, hlt, -⟩ := h.image hg hid
  obtain rfl := Ref.mirror.inj (ha.symm.trans hb)
  exact hlt

section MapMirror

variable (c : Model α) (r : Ref) (f : Mirror α → Mirror α)

theorem mapMirror_objects : (c.mapMirror r f).objects = c.objects := by rw [mapMirror_eq]

theorem mapMirror_players : (c.mapMirror r f).players = c.players := by rw [mapMirror_eq]

theorem mapMirror_heap (a : ℕ) : (c.mapMirror r f).heap a = mirrorAt r f a (c.heap a) := by
  rw [mapMirror_eq]

end MapMirror

/-! ## Portraits -/

/-- **A mirror in the colours of a player.** -/
structure Mirror.Painted (v : Mirror α) (w : Server.Player α) : Prop where
  /-- `r`. -/
  r : v.r = w.r
  /-- `g`. -/
  g : v.g = w.g
  /-- `b`. -/
  b : v.b = w.b

/-- **The client has the hands**, the table of players, but for those who were
not announced, and the colours, if nobody comes back in others. -/
structure Portrays (P : Policy) (g : Game α) (c : Model α) : Prop where
  /-- The players. -/
  seat : ∀ n r, c.players.get n = some r →
    ∃ p, g.players.get n = some p ∧ r = c.image g (.player p)
  /-- The hands. -/
  held : ∀ p a, g.Listed (.player p) → c.image g (.player p) = .mirror a →
    (c.heap a).held = (g.people p).held.map (fun e => c.image g (.entity e))
  /-- The colours. -/
  painted : ¬P.colours → ∀ p a, g.Listed (.player p) → c.image g (.player p) = .mirror a →
    (c.heap a).Painted (g.people p)
  /-- Who holds what. -/
  heldBy : ∀ e a, g.Listed (.entity e) → c.image g (.entity e) = .mirror a →
    (c.heap a).heldBy = none
      ∨ (c.heap a).heldBy = (g.entities e).heldBy.map (fun p => c.image g (.player p))

/-- **The mirrors keep what is portrayed.** -/
structure SamePaint (c c' : Model α) (a : ℕ) : Prop where
  /-- `held`. -/
  held : (c'.heap a).held = (c.heap a).held
  /-- `held_by`. -/
  heldBy : (c'.heap a).heldBy = (c.heap a).heldBy
  /-- `r`. -/
  r : (c'.heap a).r = (c.heap a).r
  /-- `g`. -/
  g : (c'.heap a).g = (c.heap a).g
  /-- `b`. -/
  b : (c'.heap a).b = (c.heap a).b

theorem SamePaint.refl (c : Model α) (a : ℕ) : SamePaint c c a := ⟨rfl, rfl, rfl, rfl, rfl⟩

theorem SamePaint.painted {a : ℕ} (h : SamePaint c c' a) {w w' : Server.Player α}
    (hc : (c.heap a).Painted w) (hr : w'.r = w.r) (hg : w'.g = w.g) (hb : w'.b = w.b) :
    (c'.heap a).Painted w' :=
  ⟨h.r.trans (hc.r.trans hr.symm), h.g.trans (hc.g.trans hg.symm), h.b.trans (hc.b.trans hb.symm)⟩

/-- **Nothing that is portrayed changes**, and no object comes or goes. -/
theorem Portrays.same (h : Portrays P g c) (himage : ∀ o, c'.image g' o = c.image g o)
    (hlisted : ∀ o, g'.Listed o → g.Listed o) (hplayers : g'.players = g.players)
    (hheld : ∀ p, (g'.people p).held = (g.people p).held)
    (hpaint : ¬P.colours → ∀ p, (g'.people p).r = (g.people p).r
      ∧ (g'.people p).g = (g.people p).g ∧ (g'.people p).b = (g.people p).b)
    (hheldBy : ∀ e, (g'.entities e).heldBy = (g.entities e).heldBy)
    (hcplayers : c'.players = c.players) (hheap : ∀ a, SamePaint c c' a) : Portrays P g' c' where
  seat n r hr := by
    rw [hcplayers] at hr
    simp only [himage, hplayers]
    exact h.seat n r hr
  held p a hp ha := by
    rw [himage] at ha
    simp only [himage, hheld]
    exact (hheap a).held.trans (h.held p a (hlisted _ hp) ha)
  painted hP p a hp ha := by
    rw [himage] at ha
    obtain ⟨hr, hg, hb⟩ := hpaint hP p
    exact (hheap a).painted (h.painted hP p a (hlisted _ hp) ha) hr hg hb
  heldBy e a he ha := by
    rw [himage] at ha
    simp only [himage, hheldBy, (hheap a).heldBy]
    exact h.heldBy e a (hlisted _ he) ha

section Update

variable (h : Portrays P g c) (hi : Indexed g c) (hg : Numbered g)

include h hi hg in
/-- **A hand changes.** -/
theorem Portrays.withHeld {p : ℕ} {item : Option ℕ} (hp : g.Listed (.player p)) :
    Portrays P (g.withHeld p item) (c.mapMirror (c.image g (.player p)) (fun v =>
      { v with held := item.map (fun e => c.image g (.entity e)) })) := by
  have himage : ∀ f o, (c.mapMirror (c.image g (.player p)) f).image (g.withHeld p item) o
      = c.image g o := fun f =>
    image_congr (Server.SameObjects.withHeld g p item).known (fun _ => by rw [mapMirror_objects])
  refine ⟨fun n r hr => ?_, fun q a hq ha => ?_, fun hP q a hq ha => ?_, fun e a he ha => ?_⟩
  · rw [mapMirror_players] at hr
    simp only [himage]
    exact h.seat n r hr
  · rw [himage] at ha
    have hold := h.held q a hq ha
    simp only [himage, Server.withHeld_people, mapMirror_heap]
    unfold mirrorAt
    -- the mirror that changes is that of the player whose hand does
    by_cases hqp : q = p
    · subst hqp
      rw [if_pos ha, if_pos rfl]
    · rw [if_neg (fun hpa => hqp (Obj.player.inj (hi.image_inj hg hq hp (ha.trans hpa.symm)))),
        if_neg hqp]
      exact hold
  · rw [himage] at ha
    obtain ⟨hr, hg', hb⟩ := h.painted hP q a hq ha
    rw [mapMirror_heap, Server.withHeld_people]
    refine ⟨?_, ?_, ?_⟩
    · refine (mirrorAt_field Mirror.r ?_ _ a _).trans (hr.trans ?_)
      · exact fun _ => rfl
      · split_ifs <;> rfl
    · refine (mirrorAt_field Mirror.g ?_ _ a _).trans (hg'.trans ?_)
      · exact fun _ => rfl
      · split_ifs <;> rfl
    · refine (mirrorAt_field Mirror.b ?_ _ a _).trans (hb.trans ?_)
      · exact fun _ => rfl
      · split_ifs <;> rfl
  · rw [himage] at ha
    have hsame : ∀ v : Mirror α, (mirrorAt (c.image g (.player p)) (fun v =>
        { v with held := item.map (fun e => c.image g (.entity e)) }) a v).heldBy = v.heldBy := by
      refine mirrorAt_field Mirror.heldBy ?_ _ a
      exact fun _ => rfl
    simp only [himage, mapMirror_heap, hsame]
    exact h.heldBy e a he ha

include h hi hg in
/-- **Somebody else holds something.** -/
theorem Portrays.withHeldBy {e : ℕ} {who : Option ℕ} (he : g.Listed (.entity e)) :
    Portrays P (g.withHeldBy e who) (c.mapMirror (c.image g (.entity e)) (fun v =>
      { v with heldBy := who.map (fun p => c.image g (.player p)) })) := by
  have himage : ∀ f o, (c.mapMirror (c.image g (.entity e)) f).image (g.withHeldBy e who) o
      = c.image g o := fun f =>
    image_congr (Server.SameObjects.withHeldBy g e who).known (fun _ => by rw [mapMirror_objects])
  refine ⟨fun n r hr => ?_, fun q a hq ha => ?_, fun hP q a hq ha => ?_, fun e' a he' ha => ?_⟩
  · rw [mapMirror_players] at hr
    simp only [himage]
    exact h.seat n r hr
  · rw [himage] at ha
    simp only [himage, mapMirror_heap]
    refine Eq.trans (mirrorAt_field Mirror.held ?_ _ a _) (h.held q a hq ha)
    exact fun _ => rfl
  · rw [himage] at ha
    obtain ⟨hr, hg', hb⟩ := h.painted hP q a hq ha
    rw [mapMirror_heap]
    refine ⟨Eq.trans (mirrorAt_field Mirror.r ?_ _ a _) hr,
      Eq.trans (mirrorAt_field Mirror.g ?_ _ a _) hg',
      Eq.trans (mirrorAt_field Mirror.b ?_ _ a _) hb⟩
    all_goals exact fun _ => rfl
  · rw [himage] at ha
    have hold := h.heldBy e' a he' ha
    simp only [himage, Server.withHeldBy_entities, mapMirror_heap]
    unfold mirrorAt Server.changeAt
    by_cases hee : e' = e
    · subst hee
      rw [if_pos ha, if_pos rfl]
      exact Or.inr rfl
    · rw [if_neg (fun hea => hee (Obj.entity.inj (hi.image_inj hg he' he (ha.trans hea.symm)))),
        if_neg hee]
      exact hold

end Update

/-! ## Objects that come and go -/

/-- **Objects come and go**, and what is portrayed of the others stays. -/
theorem Portrays.carry (h : Portrays P g c) (hi : Indexed g c) (hg : Numbered g) (hl : g.Linked)
    (hl' : g'.Linked) (himage : ∀ o, g.Listed o → g'.Listed o → c'.image g' o = c.image g o)
    (hcplayers : c'.players = c.players)
    (hplayers : ∀ n p, g.players.get n = some p → g'.players.get n = some p)
    (hpeople : ∀ p, g.Listed (.player p) → g'.people p = g.people p)
    (hheldBy : ∀ e, g.Listed (.entity e) → (g'.entities e).heldBy = (g.entities e).heldBy)
    (hheap : ∀ a, a < c.next → SamePaint c c' a)
    (hplayer : ∀ p a, ¬g.Listed (.player p) → g'.Listed (.player p) →
      c'.image g' (.player p) = .mirror a →
        (c'.heap a).held = none ∧ (g'.people p).held = none ∧ (c'.heap a).Painted (g'.people p))
    (hentity : ∀ e a, ¬g.Listed (.entity e) → g'.Listed (.entity e) →
      c'.image g' (.entity e) = .mirror a → (c'.heap a).heldBy = none) : Portrays P g' c' where
  seat n r hr := by
    rw [hcplayers] at hr
    obtain ⟨p, hp, rfl⟩ := h.seat n r hr
    have hp' := hplayers n p hp
    exact ⟨p, hp', (himage _ (hl.player n p hp) (hl'.player n p hp')).symm⟩
  -- who was there is painted as before, and who is new holds nothing
  held p a hp' ha := by
    by_cases hp : g.Listed (.player p)
    · rw [himage _ hp hp'] at ha
      have hheld := (hheap a (hi.lt_next hg hp ha)).held.trans (h.held p a hp ha)
      rw [hheld, hpeople p hp]
      refine Option.map_congr (fun e he => (himage _ (hl.held p e he) (hl'.held p e ?_)).symm)
      rw [hpeople p hp]
      exact he
    · obtain ⟨hnone, hempty, -⟩ := hplayer p a hp hp' ha
      rw [hnone, hempty]
      rfl
  painted hP p a hp' ha := by
    by_cases hp : g.Listed (.player p)
    · rw [himage _ hp hp'] at ha
      rw [hpeople p hp]
      exact (hheap a (hi.lt_next hg hp ha)).painted (h.painted hP p a hp ha) rfl rfl rfl
    · exact (hplayer p a hp hp' ha).2.2
  heldBy e a he' ha := by
    by_cases he : g.Listed (.entity e)
    · rw [himage _ he he'] at ha
      have hsame := (hheap a (hi.lt_next hg he ha)).heldBy
      rcases h.heldBy e a he ha with hnone | hby
      · exact Or.inl (hsame.trans hnone)
      · refine Or.inr (hsame.trans (hby.trans ?_))
        rw [hheldBy e he]
        refine Option.map_congr (fun p hp => (himage _ (hl.heldBy e p hp) (hl'.heldBy e p ?_)).symm)
        rw [hheldBy e he]
        exact hp
    · exact Or.inl (hentity e a he he' ha)

/-- What there was is found where it was when something has come. -/
theorem gained_image (hg : Numbered g) (hg' : Numbered g') {id : ℕ} {o : Obj} {v : Mirror α}
    (hfree : g.objects.get id = none)
    (hobjects : ∀ id', g'.objects.get id' = if id' = id then some o else g.objects.get id')
    {o' : Obj} (ho' : g.Listed o') : (c.gained v id).image g' o' = c.image g o' := by
  obtain ⟨id', hid'⟩ := ho'
  have hne : id' ≠ id := by
    rintro rfl
    rw [hfree] at hid'
    cases hid'
  refine image_of_objects hg hg' hid' ?_ ?_
  · rw [hobjects, if_neg hne, hid']
  · exact Dict.get_set_of_ne _ _ hne

/-- What has come is found as the mirror that was made. -/
theorem gained_image_self (hg' : Numbered g') {id : ℕ} {o : Obj} {v : Mirror α}
    (hid : g'.objects.get id = some o) : (c.gained v id).image g' o = .mirror c.next := by
  rw [image_of_listed hg' hid]
  show ((c.objects.set id (.mirror c.next)).get id).getD .game = _
  rw [Dict.get_set_self]
  rfl

/-- The mirrors there were are as they were when something has come. -/
theorem samePaint_gained (v : Mirror α) (id : ℕ) {a : ℕ} (ha : a < c.next) :
    SamePaint c (c.gained v id) a := by
  have hheap : (c.gained v id).heap a = c.heap a := Function.update_of_ne ha.ne _ _
  exact ⟨by rw [hheap], by rw [hheap], by rw [hheap], by rw [hheap], by rw [hheap]⟩

theorem gained_heap_self (v : Mirror α) (id : ℕ) : (c.gained v id).heap c.next = v :=
  Function.update_self _ _ _

/-- What is left is found where it was when something has gone. -/
theorem deleted_image (hg : Numbered g) {e id : ℕ} (hg' : Numbered (g.deleted e id)) (a : ℕ)
    {o : Obj} (ho : (g.deleted e id).Listed o) :
    (c.deleted a id).image (g.deleted e id) o = c.image g o := by
  obtain ⟨id', hid'⟩ := ho
  have hold : (g.objects.erase id).get id' = some o := hid'
  rw [Dict.get_erase] at hold
  split_ifs at hold with hne
  exact image_of_objects hg hg' hold hid' (Dict.get_erase_of_ne _ hne)

/-- **Who has a portrait of the game has one** of what an update leaves. -/
theorem Portrays.echo (h : Portrays P g c) (hi : Indexed g c) (hg : Numbered g) (hl : g.Linked)
    (hg' : Numbered g') (hl' : g'.Linked) (he : Echo P L g c g' c') : Portrays P g' c' := by
  -- the client is told nothing, and the game is portrayed as it was
  have hplain : ∀ (b : Game α), Server.SameObjects g b → b.people = g.people →
      (∀ e, (b.entities e).heldBy = (g.entities e).heldBy) → Portrays P b c :=
    fun b hs hpeople hheldBy => h.same (image_congr hs.known (fun _ => rfl))
      (fun o => (hs.listed o).mp) hs.players (fun _ => by rw [hpeople])
      (fun _ _ => by rw [hpeople]; exact ⟨rfl, rfl, rfl⟩) hheldBy rfl (.refl c)
  cases he with
  | quiet => exact hplain _ (.say _ _) rfl (fun _ => rfl)
  | held hp _ => exact h.withHeld hi hg hp
  | heldBy he _ => exact h.withHeldBy hi hg he
  | @moved e a parent x y _ _ _ _ =>
    have hs := Server.SameObjects.moved g e parent x y
    exact h.same (image_congr hs.known (fun _ => rfl)) (fun o => (hs.listed o).mp) rfl
      (fun _ => rfl) (fun _ _ => ⟨rfl, rfl, rfl⟩) (fun _ => rfl) rfl
      (fun _ => ⟨rfl, rfl, rfl, rfl, rfl⟩)
  | placed _ => exact hplain _ (.placed _ _ _ _ _) rfl (fun _ => rfl)
  | @created v hv hnew =>
    have hfree := Server.objects_free L g
    have hlisted := Server.created_listed L v g
    have hobjects : ∀ id', (g.created L v).objects.get id'
        = if id' = L.border g.objects + 1 then some (.entity g.nextEntity)
          else g.objects.get id' := fun id' => Dict.get_set _ _ _ _
    refine h.carry hi hg hl hl' (fun o ho _ => gained_image hg hg' hfree hobjects ho) rfl
      (fun _ _ hp => hp) (fun _ _ => rfl) (fun e he => ?_) (fun a ha => samePaint_gained _ _ ha)
      (fun p a hno hp _ => ?_) (fun e a hno he ha => ?_)
    · have hne : e ≠ g.nextEntity := fun heq => hg.ne_of_unknown he hnew (congrArg _ heq)
      rw [Server.created_of_ne L v hne]
    · exact absurd (((hlisted _).mp hp).resolve_left nofun) hno
    · rw [((hlisted _).mp he).resolve_right hno,
        gained_image_self hg' ((hobjects _).trans (if_pos rfl))] at ha
      obtain rfl := Ref.mirror.inj ha
      rw [gained_heap_self]
      rfl
  | @again o id a ho ha =>
    have hs := Server.sameLinks_enrolled (hg.id_of _ _ ho) ho ((hg.inverse _ _).mp ho)
    have hpaint : ∀ p, ((g.enrolled o id).people p).r = (g.people p).r
        ∧ ((g.enrolled o id).people p).g = (g.people p).g
        ∧ ((g.enrolled o id).people p).b = (g.people p).b := fun p => by
      rw [Server.enrolled_people]
      split_ifs
      · exact ⟨rfl, rfl, rfl⟩
      · exact ⟨rfl, rfl, rfl⟩
    exact h.same (image_congr hs.known (Dict.get_set_again ha)) (fun o => (hs.listed o).mp)
      hs.players hs.held (fun _ => hpaint) hs.heldBy rfl (fun _ => ⟨rfl, rfl, rfl, rfl, rfl⟩)
  | @deleted e id a hid _ _ _ =>
    have hlisted := Server.deleted_listed hg hid
    exact h.carry hi hg hl hl' (fun o _ ho => deleted_image hg hg' a ho) rfl (fun _ _ hp => hp)
      (fun _ _ => rfl) (fun _ _ => rfl) (fun _ _ => ⟨rfl, rfl, rfl, rfl, rfl⟩)
      (fun p _ hno hp _ => absurd ((hlisted _).mp hp).2 hno)
      (fun e' _ hno he' _ => absurd ((hlisted _).mp he').2 hno)
  | named _ => exact ⟨h.seat, h.held, h.painted, h.heldBy⟩
  | @seated name r b d hname hnew =>
    have hfree := Server.objects_free L g
    have hlisted := Server.seated_listed (g := g) L name r b d
    have hobjects : ∀ id', (g.seated name r b d (L.border g.objects + 1)).objects.get id'
        = if id' = L.border g.objects + 1 then some (.player g.nextPlayer)
          else g.objects.get id' := fun id' => Dict.get_set _ _ _ _
    refine h.carry hi hg hl hl' (fun o ho _ => gained_image hg hg' hfree hobjects ho) rfl
      (fun n p hp => ?_) (fun p hp => ?_) (fun _ _ => rfl) (fun a ha => samePaint_gained _ _ ha)
      (fun p a hno hp ha => ?_) (fun e a hno he _ => ?_)
    · show (g.players.set name g.nextPlayer).get n = some p
      rw [Dict.get_set_of_ne _ _ (fun hn => ?_), hp]
      rw [hn, hname] at hp
      cases hp
    · have hne : p ≠ g.nextPlayer := fun heq => hg.ne_of_unknown hp hnew (congrArg _ heq)
      rw [Server.seated_people, if_neg hne]
    · have hp' := ((hlisted _).mp hp).resolve_right hno
      rw [hp', gained_image_self hg' ((hobjects _).trans (if_pos rfl))] at ha
      obtain rfl := Ref.mirror.inj ha
      obtain rfl := Obj.player.inj hp'
      rw [gained_heap_self, Server.seated_people, if_pos rfl]
      exact ⟨rfl, rfl, rfl, rfl, rfl⟩
    · exact absurd (((hlisted _).mp he).resolve_left nofun) hno
  | @returned name p r b d hname hmay =>
    have hs := Server.SameObjects.mapPlayer g p (f := fun v => { v with
      name := name, r := Server.override v.r r, g := Server.override v.g b,
      b := Server.override v.b d }) rfl hname.symm
    refine h.same (image_congr hs.known (fun _ => rfl)) (fun o => (hs.listed o).mp) rfl
      (Server.returned_held p name r b d) (fun hP q => ?_) (fun _ => rfl) rfl (.refl c)
    have hsame : g.returned p name r b d = g := not_not.mp (fun hne => hP (hmay hne))
    rw [hsame]
    exact ⟨rfl, rfl, rfl⟩
  | @announced p hp =>
    have hs := Server.SameObjects.say g
      (fun packed => .addPlayer (packed .game) (packed (.player p)))
    have himage : ∀ o, Model.image { c with
        players := c.players.set (g.people p).name (c.image g (.player p)) } (g.announced p) o
          = c.image g o := image_congr hs.known (fun _ => rfl)
    refine ⟨fun n r hr => ?_, fun q a hq ha => ?_, fun hP q a hq ha => ?_, fun e a he ha => ?_⟩
    · change (c.players.set (g.people p).name _).get n = some r at hr
      simp only [himage]
      rw [Dict.get_set] at hr
      split_ifs at hr with hn
      · refine ⟨p, ?_, (Option.some.inj hr).symm⟩
        rw [hn]
        exact hl.seat p hp
      · exact h.seat n r hr
    · rw [himage] at ha
      simp only [himage]
      exact h.held q a ((hs.listed _).mp hq) ha
    · rw [himage] at ha
      exact h.painted hP q a ((hs.listed _).mp hq) ha
    · rw [himage] at ha
      simp only [himage]
      exact h.heldBy e a ((hs.listed _).mp he) ha
  | @tweak e opened count =>
    refine hplain _ (.mapEntity g e (f := fun v => { v with opened := opened, count := count })
      ?_ ?_ ?_) rfl (Server.tweak_heldBy e opened count)
    all_goals exact fun _ => rfl
  | load => exact ⟨h.seat, h.held, h.painted, h.heldBy⟩

/-- An update leaves whoever a client has in its table. -/
theorem Echo.players (he : Echo P L g c g' c') {n : Bytes} (hn : c.players.get n ≠ none) :
    c'.players.get n ≠ none := by
  cases he with
  | held _ _ => rwa [mapMirror_players]
  | heldBy _ _ => rwa [mapMirror_players]
  | announced _ =>
    show (c.players.set _ _).get n ≠ none
    rw [Dict.get_set]
    split_ifs
    · exact Option.some_ne_none _
    · exact hn
  | _ => exact hn

/-- **Who has a portrait of the game receives what is broadcast** of updates,
and has one then. -/
theorem Portrays.updates (h : Portrays P g c) (hi : Indexed g c) (hg : Numbered g) (hl : g.Linked)
    {ms : List (Msg α)} (hus : Server.Updates P L g ms g') : ∃ c', Replays c ms c' ∧ Indexed g' c'
      ∧ Portrays P g' c' ∧ ∀ n, c.players.get n ≠ none → c'.players.get n ≠ none := by
  induction hus generalizing c with
  | nil g => exact ⟨c, .nil c, hi, h, fun _ hn => hn⟩
  | cons hu _ ih =>
    obtain ⟨c₁, hreplays, hecho⟩ := hi.receive_update hg hu
    have hg₁ := hu.numbered hg
    have hl₁ := hl.update hg hu
    obtain ⟨c', hreplays', hi', h', hplayers⟩ :=
      ih (h.echo hi hg hl hg₁ hl₁ hecho) (hi.echo hg hecho) hg₁ hl₁
    exact ⟨c', hreplays.append hreplays', hi', h', fun n hn => hplayers n (hecho.players hn)⟩

/-! ## The snapshot -/

section Snapshot

variable {fits : Kind → Kind → Prop} (h : Sound fits g)

include h in
theorem image_joined {o : Obj} (ho : g.Listed o) :
    (Model.joined g).image g o = firstImage g o := by
  obtain ⟨id, hid⟩ := ho
  have hpos : id ≠ 0 := by
    rintro rfl
    rw [h.pos] at hid
    cases hid
  rw [image_of_listed h.numbered hid, objects_joined, if_neg hpos, hid]
  rfl

include h in
/-- The mirror of an object that has an id is made from its constructor. -/
theorem heap_joined_of_image {o : Obj} (ho : g.Listed o) {a : ℕ}
    (ha : (Model.joined g).image g o = .mirror a) :
    ∃ v parent, Server.ctor g (fun _ => none) o = some v ∧ (Model.joined g).heap a
      = { Model.instantiate (Model.fresh.denotes (Server.snapshot g)) o v with
          parent := parent } := by
  obtain ⟨k, v, hfind, hk, hv⟩ := exists_place h ho
  rw [image_joined h ho, firstImage_eq hfind] at ha
  obtain rfl := Ref.mirror.inj ha
  exact ⟨v, _, hv, heap_joined hk⟩

include h in
/-- **A snapshot portrays the game**, but for who holds what. -/
theorem portrays_joined (P : Policy) : Portrays P g (Model.joined g) where
  seat n r hr := by
    change (g.players.map (fun p => firstImage g (.player p))).get n = some r at hr
    rw [Dict.get_map] at hr
    obtain ⟨p, hp, rfl⟩ := Option.map_eq_some_iff.mp hr
    exact ⟨p, hp, (image_joined h ((h.player_iff p).mpr (h.players n p hp).1)).symm⟩
  held p a hp ha := by
    obtain ⟨v, parent, hv, hheap⟩ := heap_joined_of_image h hp ha
    obtain rfl := Option.some.inj hv
    rw [hheap]
    show ((g.people p).held.map (fun e => Server.Packed.whole (.entity e))).map _ = _
    rw [Option.map_map]
    exact Option.map_congr (fun e he => (image_joined h (h.held p e he).1).symm)
  painted _ p a hp ha := by
    obtain ⟨v, parent, hv, hheap⟩ := heap_joined_of_image h hp ha
    obtain rfl := Option.some.inj hv
    rw [hheap]
    exact ⟨rfl, rfl, rfl⟩
  heldBy e a he ha := by
    obtain ⟨v, parent, hv, hheap⟩ := heap_joined_of_image h he ha
    obtain rfl := Option.some.inj hv
    rw [hheap]
    exact Or.inl rfl

end Snapshot

/-! ## Every world -/

/-- **A client with a portrait of the game**, and its table of players. -/
structure Portrait (P : Policy) (g : Game α) (c : Model α) : Prop where
  /-- It has the ids. -/
  indexed : Indexed g c
  /-- What the game refers to has an id. -/
  linked : g.Linked
  /-- The hands and the colours. -/
  portrays : Portrays P g c
  /-- The players were announced. -/
  full : ∀ n p, g.players.get n = some p → c.players.get n ≠ none

theorem Portrait.settled (h : Portrait P g c) : Portrait P { g with sent := [] } c where
  indexed := h.indexed.reshaped (.of_sameObjects (Server.sameLinks_settled g).toSameObjects)
    (.refl c)
  linked := ⟨h.linked.held, h.linked.heldBy, h.linked.player, h.linked.seat⟩
  portrays := ⟨h.portrays.seat, h.portrays.held, h.portrays.painted, h.portrays.heldBy⟩
  full := h.full

/-- **Clients keep their portraits of the game.** -/
theorem follows_portrait (hP : P.fits = Kind.Below) (hscripts : ¬P.scripts)
    (L : Dict.Length Obj) : Follows P L Game.Linked (Portrait P (α := Point Obj)) where
  stretch {g g' c} h hsent hs hc := by
    have hfield : ∀ a b, P.fits a b → a ≠ .field := fun a b hab =>
      ne_field_of_below a b (hP ▸ hab)
    -- what is broadcast of the changes is received, whoever came
    have hreceive : ∀ {t : Game (Point Obj)}, Server.Chain P L g t → t.Linked ∧ ∃ ms c₁,
        t.sent = ms ∧ Replays c ms c₁ ∧ Indexed t c₁ ∧ Portrays P t c₁
          ∧ ∀ n, c.players.get n ≠ none → c₁.players.get n ≠ none := fun {t} hchain => by
      obtain ⟨ms, hms⟩ := updates_of_chain h hfield hscripts hchain
      obtain ⟨c₁, hreplays, hi₁, h₁, hplayers⟩ :=
        hc.portrays.updates hc.indexed h.numbered hc.linked hms
      have hms' := hms.sent h.numbered
      rw [hsent] at hms'
      exact ⟨hc.linked.updates h.numbered hms, ms, c₁, hms', hreplays, hi₁, h₁, hplayers⟩
    cases hs with
    | still hchain hsame =>
      obtain ⟨hl, ms, c₁, rfl, hreplays, hi₁, h₁, hplayers⟩ := hreceive hchain
      have hfull : Portrait P g' c₁ :=
        ⟨hi₁, hl, h₁, fun n p hp => hplayers n (hc.full n p (hsame n p hp))⟩
      exact ⟨c₁, hreplays, hfull.settled⟩
    | @arrival t name p hchain hp hother =>
      obtain ⟨hl, ms, c₁, hms, hreplays, hi₁, h₁, hplayers⟩ := hreceive hchain
      have hnumbered := (h.chain hchain).numbered
      have hlisted := hl.player name p hp
      have hm : Server.Mentions t (fun packed => .addPlayer (packed .game) (packed (.player p))) :=
        Server.mentions_pair hlisted (fun _ => rfl)
      have hecho : Echo P L t c₁ (t.announced p) { c₁ with
        players := c₁.players.set (t.people p).name (c₁.image t (.player p)) } := .announced hlisted
      have hl' : (t.announced p).Linked := hl.update hnumbered
        (.announced hlisted : Server.Update P L t _ (t.announced p))
      have hfull : Portrait P (t.announced p) _ :=
        ⟨hi₁.echo hnumbered hecho, hl', h₁.echo hi₁ hnumbered hl
          (hnumbered.sameObjects (.say _ _)) hl' hecho, fun n q hq => ?_⟩
      · refine ⟨_, ?_, hfull.settled⟩
        have hsent' : (t.announced p).sent = ms ++ [Server.plain t (fun packed =>
            .addPlayer (packed .game) (packed (.player p)))] := by
          rw [← hms]
          exact Server.sent_say hnumbered hm
        rw [hsent']
        exact hreplays.append (.single (hi₁.honoured hnumbered hm)
          (hi₁.receive_addPlayer hnumbered hlisted))
      · show (c₁.players.set (t.people p).name _).get n ≠ none
        rw [((h.chain hchain).players name p hp).2, Dict.get_set]
        split_ifs with hn
        · exact Option.some_ne_none _
        · exact hplayers n (hc.full n q ((hother n q hq).resolve_left hn))
  snapshot {g} h hl := by
    have hrank : ∀ a b, P.fits a b → Kind.rank a < Kind.rank b := fun a b hab => by
      rw [hP] at hab
      exact hab.1
    refine ⟨_, replays_snapshot h hrank, indexed_joined h, hl, portrays_joined h P,
      fun n p hp => ?_⟩
    show (g.players.map (fun p => firstImage g (.player p))).get n ≠ none
    rw [Dict.get_map, hp]
    exact Option.some_ne_none _
  said h := ⟨h.held, h.heldBy, h.player, h.seat⟩

section Reached

variable {S : Site} {fuel : ℕ} {games : List Bytes} {W : World}

/-- **In every world the clients have portraits** of the game, if the deeds
make only changes that may occur. -/
theorem synced_portrait (hP : P.fits = Kind.Below) (hscripts : ¬P.scripts)
    {ok : Deed → Server.State (Point Obj) → Prop} (honce : ∀ d s, ok d s → d.Once S s)
    (hmay : ∀ d s, Sound P.fits s.game → ok d s → (∃ v, s.LoggedIn v) → d.May P S s)
    (hW : Reached (serving S fuel ok) (Server.State.opening S games) W) :
    Synced P (Portrait P (α := Point Obj)) W := by
  have hlinked : Reached (fun s sent s' => serving S fuel ok s sent s' ∧ s'.game.Linked)
      (Server.State.opening S games) W := hW.mono (fun {W sent s'} hW hs => by
    obtain ⟨d, hd, -, hl, -⟩ := id hs
    exact ⟨hs, (Server.persists_linked S.length).played Server.linked_empty
      (.deed d (played_of_reached hW) hd trivial hl)⟩)
  refine synced_of_reaches (follows_portrait hP hscripts S.length) ?_ (synced_opening hP S games)
    hlinked
  rintro W' sent s' h ⟨⟨d, hd, hok, hl, rfl⟩, hgame⟩
  exact ⟨Server.serves_of_leaves hP h.manned h.seats h.unmade (fun v hv => (h.guest v hv).2.1) hd
    (honce d _ hok) (hmay d _ h.manned.sound hok) hl, fun _ => hgame⟩

/-! ## What the clients have -/

/-- **What a client has of the hands.** -/
structure SameHands (g : Game (Point Obj)) (c : Model (Point Obj)) : Prop where
  /-- The players are the server's. -/
  players : ∀ n, c.players.get n = (g.players.get n).map (fun p => c.image g (.player p))
  /-- A player holds what they hold. -/
  held : ∀ p, g.Listed (.player p) → ∃ a, c.image g (.player p) = .mirror a
    ∧ (c.heap a).held = (g.people p).held.map (fun e => c.image g (.entity e))
  /-- An entity is held by who holds it, unless the client does not know. -/
  heldBy : ∀ e, g.Listed (.entity e) → ∃ a, c.image g (.entity e) = .mirror a
    ∧ ((c.heap a).heldBy = none
      ∨ (c.heap a).heldBy = (g.entities e).heldBy.map (fun p => c.image g (.player p)))

theorem Portrait.sameHands {g : Game (Point Obj)} {c : Model (Point Obj)} (h : Portrait P g c)
    (hg : Numbered g) : SameHands g c where
  players n := by
    rcases hr : c.players.get n with _ | r
    · rcases hp : g.players.get n with _ | p
      · rfl
      · exact absurd hr (h.full n p hp)
    · obtain ⟨p, hp, rfl⟩ := h.portrays.seat n r hr
      rw [hp]
      rfl
  held p hp := by
    obtain ⟨id, hid⟩ := hp
    obtain ⟨a, ha, -⟩ := h.indexed.image hg hid
    exact ⟨a, ha, h.portrays.held p a ⟨id, hid⟩ ha⟩
  heldBy e he := by
    obtain ⟨id, hid⟩ := he
    obtain ⟨a, ha, -⟩ := h.indexed.image hg hid
    exact ⟨a, ha, h.portrays.heldBy e a ⟨id, hid⟩ ha⟩

/-- **Whoever comes back brings the colours they had**, if somebody is there to
see it. -/
def Deed.KeepsColours (s : Server.State (Point Obj)) : Deed → Prop
  | .session (.login _ (.string name) _ r g b) => (∃ v, s.LoggedIn v) → ∀ p,
      s.game.players.get name = some p → Server.override (s.game.people p).r r = (s.game.people p).r
        ∧ Server.override (s.game.people p).g g = (s.game.people p).g
        ∧ Server.override (s.game.people p).b b = (s.game.people p).b
  | _ => True

/-- What the shipped methods may do if nobody comes back with other colours. -/
def Policy.fast : Policy := { Policy.shipped with colours := False }

theorem may_fast {s : Server.State (Point Obj)} {d : Deed} (h : Sound Kind.Below s.game)
    (hd : Deed.KeepsColours s d) (hin : ∃ v, s.LoggedIn v) : d.May Policy.fast S s := by
  have hsafe : ∀ w, Server.HandSafe Policy.fast s w := fun _ _ _ _ _ _ => trivial
  cases d with
  | session e =>
    cases e with
    | connect _ _ => trivial
    | login w name _ r g b =>
      cases name with
      | string name =>
        refine ⟨⟨fun _ => trivial, fun p hp hne => hne ?_⟩, hsafe w⟩
        obtain ⟨hr, hg, hb⟩ := hd hin p hp
        have hv : ({ s.game.people p with
            name := name
            r := Server.override (s.game.people p).r r
            g := Server.override (s.game.people p).g g
            b := Server.override (s.game.people p).b b } : Server.Player (Point Obj))
              = s.game.people p := by
          rw [hr, hg, hb, ← (h.players name p hp).2]
        refine (congrArg (fun v => ({ s.game with people := Function.update s.game.people p v } :
          Game (Point Obj))) hv).trans ?_
        dsimp only
        rw [Function.update_eq_self]
      | _ => exact hsafe w
    | chat _ _ => trivial
    | disconnect w => exact hsafe w
  | act w e method x y =>
    refine ⟨⟨fun _ _ _ _ _ => ⟨trivial, Server.bare_of_below rfl⟩,
      fun _ _ _ => ⟨trivial, Or.inr trivial⟩, fun _ _ _ _ _ _ => ⟨fun _ => trivial,
        fun _ => ⟨trivial, fun _ _ => trivial⟩⟩⟩, fun _ _ => trivial, fun _ => hsafe w⟩
  | transmit w _ => exact fun _ _ => hsafe w

end Reached

end Client

end Felt
