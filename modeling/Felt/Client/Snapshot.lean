import Felt.Client.Replica

/-!
# What a client makes of a snapshot

The first message a client receives is the game, with every object that has
an id packed whole. The client makes a mirror of each, in the order the
message carries them, and is in step then.

Objects are packed inside one another – children inside their parents – so
that a snapshot can be unpacked only when no entity is inside itself. When
everything stands on something of a higher rank, none is.

A mirror is made as soon as everything inside its constructor has been, and
rounds are the way to say so without an order that is given in advance. With a
rank there is one, and the number of rounds is bounded by it.

The methods of a mirror that adopts its children are called while the snapshot is
unpacked, when the client has no game. Nothing is registered by them, and nothing
is drawn; the tables are filled when the game itself is made.
-/

namespace Felt

namespace Client

open Server (Game Obj Kind Packed Ctor Call Msg Sound ctor made snapshot)

variable {α : Type}

/-! ## Rounds -/

section Rounds

variable {m : Msg α}

theorem isGrounded_mono {os os' : List Obj} (h : ∀ o ∈ os, o ∈ os') {p : Packed}
    (hp : isGrounded os p = true) : isGrounded os' p = true := by
  cases p with
  | known _ _ => rfl
  | whole o => exact decide_eq_true (h o (of_decide_eq_true hp))

/-- What can be made in a round can be made in the next. -/
theorem grounded_sublist (m : Msg α) (n : ℕ) : (grounded m n).Sublist (grounded m (n + 1)) := by
  induction n with
  | zero => exact List.nil_sublist _
  | succ n ih =>
    refine List.Sublist.map _ (List.monotone_filter_right _ (fun p hp => ?_))
    refine List.all_eq_true.mpr (fun q hq => ?_)
    exact isGrounded_mono (fun _ ho => ih.subset ho) (List.all_eq_true.mp hp q hq)

/-- **A round that makes nothing new is the last one**, and before that every
round makes something. -/
theorem grounded_stable (m : Msg α) (n : ℕ) :
    grounded m (n + 1) = grounded m n ∨ n ≤ (grounded m n).length := by
  induction n with
  | zero => exact Or.inr (Nat.zero_le _)
  | succ n ih =>
    by_cases hsame : grounded m (n + 1) = grounded m n
    · left
      show (m.carried.filter (fun p => p.2.mentions.all (isGrounded (grounded m (n + 1))))).map _
        = (m.carried.filter (fun p => p.2.mentions.all (isGrounded (grounded m n)))).map _
      rw [hsame]
    · right
      have hn := ih.resolve_left hsame
      have hsub := grounded_sublist m n
      have hne : (grounded m n).length ≠ (grounded m (n + 1)).length :=
        fun hlength => hsame (hsub.eq_of_length hlength).symm
      have hle := hsub.length_le
      omega

/-- **What stands on something of a higher rank** is not inside itself. -/
theorem grounded_of_rank (rank : Obj → ℕ) (hrank : ∀ p ∈ m.carried, ∀ o, .whole o ∈ p.2.mentions →
    rank o < rank p.1 ∧ o ∈ m.carried.map Prod.fst) : Grounded m := by
  -- when nothing new can be made, nothing is left, as something of the least rank could be made
  have hstable : ∀ n, grounded m (n + 1) = grounded m n →
      ∀ r, ∀ p ∈ m.carried, rank p.1 = r → p.1 ∈ grounded m n := by
    intro n hn r
    induction r using Nat.strong_induction_on with
    | _ r ih =>
      intro p hp hr
      rw [← hn]
      refine List.mem_map_of_mem (List.mem_filter.mpr ⟨hp, List.all_eq_true.mpr (fun q hq => ?_)⟩)
      cases q with
      | known _ _ => rfl
      | whole o =>
        obtain ⟨hlt, hmem⟩ := hrank p hp o hq
        obtain ⟨p', hp', rfl⟩ := List.mem_map.mp hmem
        exact decide_eq_true (ih _ (hr ▸ hlt) p' hp' rfl)
  intro p hp
  rcases grounded_stable m m.carried.length with hsame | hlength
  · exact hstable _ hsame _ p hp rfl
  · -- as many as there are have been made
    cases hn : m.carried.length with
    | zero =>
      rw [List.length_eq_zero_iff.mp hn] at hp
      exact absurd hp List.not_mem_nil
    | succ n =>
      have hall : m.carried.filter (fun p => p.2.mentions.all (isGrounded (grounded m n)))
          = m.carried := by
        refine List.filter_sublist.eq_of_length (le_antisymm List.filter_sublist.length_le ?_)
        rw [hn] at hlength
        rw [hn]
        exact hlength.trans_eq (List.length_map _)
      show p.1 ∈ (m.carried.filter _).map Prod.fst
      rw [hall]
      exact List.mem_map_of_mem hp

end Rounds

/-! ## What a snapshot carries -/

section Carried

variable {fits : Kind → Kind → Prop} {g : Game α} (h : Sound fits g)

theorem values_map {κ β γ : Type} (f : β → γ) (t : Dict κ β) :
    (t.map f).values = t.values.map f := by
  show (t.pairs.map _).map Prod.snd = (t.pairs.map Prod.snd).map f
  rw [List.map_map, List.map_map]
  rfl

include h in
/-- **A snapshot mentions the objects that have ids.** -/
theorem mentions_snapshot (o : Obj) : .whole o ∈ (snapshot g).call.mentions ↔ g.Listed o := by
  show Packed.whole o ∈ (g.objects.map Packed.whole).values
    ++ (g.fields.map (fun e => Packed.whole (.entity e))).values
    ++ (g.players.map (fun p => Packed.whole (.player p))).values ↔ _
  simp only [values_map, List.mem_append, List.mem_map, Packed.whole.injEq]
  constructor
  · rintro ((⟨_, ho, rfl⟩ | ⟨f, hf, rfl⟩) | ⟨p, hp, rfl⟩)
    · exact Dict.mem_values.mp ho
    · obtain ⟨n, hn⟩ := Dict.mem_values.mp hf
      exact (h.fields n f hn).1
    · obtain ⟨n, hn⟩ := Dict.mem_values.mp hp
      exact (h.player_iff p).mpr (h.players n p hn).1
  · exact fun ho => Or.inl (Or.inl ⟨o, Dict.mem_values.mpr ho, rfl⟩)

include h in
theorem mem_made_of_listed {o : Obj} (ho : g.Listed o) : o ∈ made g := by
  cases o with
  | game => exact absurd ho h.not_listed_game
  | entity e => exact Server.mem_made_entity.mpr (h.entity e ho)
  | player p => exact Server.mem_made_player.mpr ((h.player_iff p).mp ho)

include h in
/-- What an object that has an id mentions has an id. -/
theorem listed_of_ctor {o o' : Obj} {v : Ctor α} (hv : ctor g (fun _ => none) o = some v)
    (ho' : .whole o' ∈ v.mentions) : g.Listed o' := by
  cases o with
  | game => cases hv
  | entity e =>
    obtain rfl := Option.some.inj hv
    obtain ⟨k, hk, he⟩ := List.mem_map.mp (show Packed.whole o' ∈ (g.entities e).children.map
      (fun k => Packed.whole (.entity k)) from ho')
    obtain rfl := Packed.whole.inj he
    exact (h.parent k e ((h.tree.child_iff e k).mp hk)).1
  | player p =>
    obtain rfl := Option.some.inj hv
    have hmem :
        Packed.whole o' ∈ ((g.people p).held.map (fun e => Packed.whole (.entity e))).toList :=
      ho'
    obtain ⟨e, he, hw⟩ := Option.map_eq_some_iff.mp (Option.mem_toList.mp hmem)
    obtain rfl := Packed.whole.inj hw
    exact (h.held p e he).1

include h in
/-- **A snapshot carries the objects that have ids**, each with its
constructor. -/
theorem mem_carried_snapshot {o : Obj} {v : Ctor α} :
    (o, v) ∈ (snapshot g).carried ↔ g.Listed o ∧ ctor g (fun _ => none) o = some v := by
  have hcarried : (snapshot g).carried
      = ((made g).filter (fun o => .whole o ∈ (snapshot g).call.mentions)).flatMap
          (fun o => (ctor g (fun _ => none) o).toList.map (o, ·)) := by
    refine congrArg (List.flatMap _) (Server.carried_of_closed (fun o' _ v hv o'' ho'' => ?_))
    exact (mentions_snapshot h o'').mpr (listed_of_ctor h hv ho'')
  rw [hcarried, List.mem_flatMap]
  constructor
  · rintro ⟨o', ho', hmem⟩
    obtain ⟨v', hv', heq⟩ := List.mem_map.mp hmem
    obtain ⟨rfl, rfl⟩ := Prod.mk.inj heq
    exact ⟨(mentions_snapshot h o').mp (of_decide_eq_true (List.mem_filter.mp ho').2),
      Option.mem_toList.mp hv'⟩
  · rintro ⟨ho, hv⟩
    exact ⟨o, List.mem_filter.mpr ⟨mem_made_of_listed h ho, decide_eq_true
      ((mentions_snapshot h o).mpr ho)⟩, List.mem_map_of_mem (Option.mem_toList.mpr hv)⟩

/-- What an object is given in a snapshot. -/
theorem exists_ctor {o : Obj} (ho : o ≠ .game) (objs : Obj → Option ℕ) :
    ∃ v : Ctor α, ctor g objs o = some v := by
  cases o with
  | game => exact absurd rfl ho
  | entity e => exact ⟨_, rfl⟩
  | player p => exact ⟨_, rfl⟩

include h in
/-- **Every object that has an id has a place in the snapshot.** -/
theorem exists_place {o : Obj} (ho : g.Listed o) :
    ∃ k v, (snapshot g).carried.findIdx? (fun p => p.1 = o) = some k
      ∧ (snapshot g).carried[k]? = some (o, v) ∧ ctor g (fun _ => none) o = some v := by
  have hne : o ≠ .game := fun hgame => h.not_listed_game (hgame ▸ ho)
  obtain ⟨v, hv⟩ := exists_ctor (g := g) hne (fun _ => none)
  have hmem := (mem_carried_snapshot h).mpr ⟨ho, hv⟩
  rcases hfind : (snapshot g).carried.findIdx? (fun p => p.1 = o) with _ | k
  · have hnone := List.findIdx?_eq_none_iff.mp hfind _ hmem
    simp at hnone
  · obtain ⟨hk, hget, -⟩ := List.findIdx?_eq_some_iff_getElem.mp hfind
    have hfst : ((snapshot g).carried[k]).1 = o := by simpa using hget
    have hk' : (snapshot g).carried[k] = (o, ((snapshot g).carried[k]).2) := by rw [← hfst]
    have hv' := ((mem_carried_snapshot h).mp (hk' ▸ List.getElem_mem hk)).2
    exact ⟨k, _, hfind, (List.getElem?_eq_getElem hk).trans (congrArg some hk'), hv'⟩

end Carried

/-! ## Making the mirrors -/

section Build

variable {c : Model α}

/-- The parent of a mirror when these have adopted their children. -/
def adoptedBy (children : ℕ → List Ref) (b : ℕ) (as : List ℕ) (r : Option Ref) : Option Ref :=
  as.foldl (fun r a => if .mirror b ∈ children a then some (.mirror a) else r) r

/-- The mirrors when these have adopted their children: only parents have
changed. -/
def Model.adopted (as : List ℕ) (c : Model α) : Model α :=
  { c with heap := fun b => { c.heap b with
      parent := adoptedBy (fun a => (c.heap a).children) b as (c.heap b).parent } }

theorem adopt_eq (a : ℕ) (c : Model α) : c.adopt a = c.adopted [a] := by
  have hfold : ∀ (rs : List Ref) (c : Model α), rs.foldl (fun c child => c.mapMirror child
      (fun v => { v with parent := some (.mirror a) })) c = { c with heap := fun b =>
        { c.heap b with
          parent := if .mirror b ∈ rs then some (.mirror a) else (c.heap b).parent } } := by
    intro rs
    induction rs with
    | nil => exact fun c => rfl
    | cons r rs ih =>
      intro c
      rw [List.foldl_cons, ih, mapMirror_eq]
      refine congrArg (fun h => ({ c with heap := h } : Model α)) (funext fun b => ?_)
      dsimp only
      unfold mirrorAt
      rcases eq_or_ne r (.mirror b) with rfl | hr
      · simp
      · simp [hr, hr.symm]
  exact hfold _ c

theorem adopted_cons (a : ℕ) (as : List ℕ) (c : Model α) :
    (c.adopted [a]).adopted as = c.adopted (a :: as) := rfl

/-- **A client without a game makes mirrors**, and registers none. -/
theorem foldl_enter_eq (hl : c.loaded = false) (as : List ℕ) :
    as.foldl (fun c a => c.enter a) c = c.adopted as := by
  induction as generalizing c with
  | nil => rfl
  | cons a as ih =>
    have henter : c.enter a = c.adopted [a] := by
      unfold Model.enter Model.register
      rw [adopt_eq]
      simp only [show (c.adopted [a]).loaded = false from hl]
    rw [List.foldl_cons, henter, ih (c := c.adopted [a]) hl, adopted_cons]

/-- The mirrors of what a message carries, as a client makes them that has
received nothing. -/
def firstMirrors (m : Msg α) : List (Mirror α) :=
  m.carried.map (fun p => Model.instantiate (Model.fresh.denotes m) p.1 p.2)

theorem build_fresh (m : Msg α) : Model.fresh.build m
    = (Model.fresh.allocate (firstMirrors m)).adopted (List.range' 0 (firstMirrors m).length) :=
  foldl_enter_eq (c := Model.fresh.allocate (firstMirrors m)) rfl _

/-- A mirror that was made of what stands at that place. -/
theorem heap_build_fresh {m : Msg α} {k : ℕ} {o : Obj} {v : Ctor α}
    (hk : m.carried[k]? = some (o, v)) : (Model.fresh.build m).heap k
      = { Model.instantiate (Model.fresh.denotes m) o v with
          parent := adoptedBy (fun a => ((Model.fresh.allocate (firstMirrors m)).heap a).children) k
            (List.range' 0 (firstMirrors m).length) none } := by
  have hget : (Model.fresh.allocate (firstMirrors m)).heap k
      = Model.instantiate (Model.fresh.denotes m) o v := by
    show (if k < 0 then Model.fresh.heap k
      else (firstMirrors m).getD (k - 0) (Model.fresh.heap k)) = _
    rw [if_neg (Nat.not_lt_zero _), Nat.sub_zero, List.getD_eq_getElem?_getD]
    unfold firstMirrors
    rw [List.getElem?_map, hk]
    rfl
  have hparent : (Model.instantiate (Model.fresh.denotes m) o v).parent = none := by
    cases v <;> rfl
  rw [build_fresh]
  unfold Model.adopted
  dsimp only
  rw [hget, hparent]

end Build

/-! ## Receiving it -/

section Receive

variable {fits : Kind → Kind → Prop} {g : Game α} (h : Sound fits g)

/-- The rank of an object, when entities have ranks. -/
def objRank (rank : Kind → ℕ) (g : Game α) : Obj → ℕ
  | .game => 0
  | .entity e => rank (g.entities e).kind
  | .player p => ((g.people p).held.map (fun e => rank (g.entities e).kind + 1)).getD 0

include h in
/-- **No entity of a snapshot is inside itself**, when what stands on something
is of a lower rank. -/
theorem grounded_snapshot {rank : Kind → ℕ} (hrank : ∀ a b, fits a b → rank a < rank b) :
    Grounded (snapshot g) := by
  refine grounded_of_rank (objRank rank g) (fun p hp o ho => ?_)
  obtain ⟨o', v⟩ := p
  obtain ⟨-, hv⟩ := (mem_carried_snapshot h).mp hp
  have hlisted := listed_of_ctor h hv ho
  obtain ⟨k, w, -, hk, -⟩ := exists_place h hlisted
  refine ⟨?_, List.mem_map.mpr ⟨_, List.mem_of_getElem? hk, rfl⟩⟩
  cases o' with
  | game => cases hv
  | entity e =>
    obtain rfl := Option.some.inj hv
    obtain ⟨i, hi, he⟩ := List.mem_map.mp (show Packed.whole o ∈ (g.entities e).children.map
      (fun i => Packed.whole (.entity i)) from ho)
    obtain rfl := Packed.whole.inj he
    exact hrank _ _ (h.parent i e ((h.tree.child_iff e i).mp hi)).2.2
  | player p =>
    obtain rfl := Option.some.inj hv
    have hmem :
        Packed.whole o ∈ ((g.people p).held.map (fun e => Packed.whole (.entity e))).toList :=
      ho
    obtain ⟨e, he, hw⟩ := Option.map_eq_some_iff.mp (Option.mem_toList.mp hmem)
    obtain rfl := Packed.whole.inj hw
    show rank (g.entities e).kind
      < ((g.people p).held.map (fun e => rank (g.entities e).kind + 1)).getD 0
    rw [he]
    exact Nat.lt_succ_self _

include h in
/-- Everything a snapshot mentions is packed whole, and has an id. -/
theorem exists_of_mention {m : Packed} (hm : m ∈ (snapshot g).mentions) :
    ∃ o, m = .whole o ∧ g.Listed o := by
  rcases List.mem_append.mp hm with hcall | hcarried
  · have hwhole : ∃ o, m = .whole o := by
      change m ∈ (g.objects.map Packed.whole).values
        ++ (g.fields.map (fun e => Packed.whole (.entity e))).values
        ++ (g.players.map (fun p => Packed.whole (.player p))).values at hcall
      simp only [values_map, List.mem_append, List.mem_map] at hcall
      rcases hcall with (⟨o, -, rfl⟩ | ⟨e, -, rfl⟩) | ⟨p, -, rfl⟩
      · exact ⟨_, rfl⟩
      · exact ⟨_, rfl⟩
      · exact ⟨_, rfl⟩
    obtain ⟨o, rfl⟩ := hwhole
    exact ⟨o, rfl, (mentions_snapshot h o).mp hcall⟩
  · obtain ⟨⟨o', v⟩, hp, hmem⟩ := List.mem_flatMap.mp hcarried
    obtain ⟨-, hv⟩ := (mem_carried_snapshot h).mp hp
    have hwhole : ∃ o, m = .whole o := by
      cases o' with
      | game => cases hv
      | entity e =>
        obtain rfl := Option.some.inj hv
        obtain ⟨i, -, rfl⟩ := List.mem_map.mp (show m ∈ (g.entities e).children.map
          (fun i => Packed.whole (.entity i)) from hmem)
        exact ⟨_, rfl⟩
      | player p =>
        obtain rfl := Option.some.inj hv
        have hmem' : m ∈ ((g.people p).held.map (fun e => Packed.whole (.entity e))).toList := hmem
        obtain ⟨e, -, rfl⟩ := Option.map_eq_some_iff.mp (Option.mem_toList.mp hmem')
        exact ⟨_, rfl⟩
    obtain ⟨o, rfl⟩ := hwhole
    exact ⟨o, rfl, listed_of_ctor h hv hmem⟩

/-- What a client that has received nothing has for what a snapshot packs. -/
def firstImage (g : Game α) (o : Obj) : Ref := Model.fresh.denotes (snapshot g) (.whole o)

/-- **The client when it has received the snapshot.** -/
def Model.joined (g : Game α) : Model α :=
  (Model.fresh.build (snapshot g)).game (g.objects.map (firstImage g))
    (g.fields.map (fun f => firstImage g (.entity f)))
    (g.players.map (fun p => firstImage g (.player p)))

/-- What is mapped twice. -/
theorem map_map {κ β γ δ : Type} (f : β → γ) (k : γ → δ) (t : Dict κ β) :
    (t.map f).map k = t.map (k ∘ f) := by
  have hpairs : ((t.map f).map k).pairs = (t.map (k ∘ f)).pairs := List.map_map
  rcases hs : (t.map f).map k with ⟨ps, hps⟩
  rw [hs] at hpairs
  obtain rfl := hpairs
  rfl

include h in
/-- **The snapshot is received.** -/
theorem receive_snapshot {rank : Kind → ℕ} (hrank : ∀ a b, fits a b → rank a < rank b) :
    Model.fresh.receive (snapshot g) = .ok (Model.joined g) := by
  have hfind : ∀ m ∈ (snapshot g).mentions, Model.fresh.find (snapshot g) m ≠ none := by
    intro m hm
    obtain ⟨o, rfl, ho⟩ := exists_of_mention h hm
    obtain ⟨k, v, hk, -⟩ := exists_place h ho
    show ((snapshot g).carried.findIdx? (fun p => decide (p.1 = o))).map _ ≠ none
    rw [hk]
    nofun
  rw [Model.receive_of (grounded_snapshot h hrank) hfind (fun hl => absurd hl nofun)]
  show Except.ok (Model.game ((g.objects.map _).map _) ((g.fields.map _).map _)
    ((g.players.map _).map _) _) = _
  rw [map_map, map_map, map_map]
  rfl

/-- The mirror of what stands at that place. -/
theorem heap_joined {k : ℕ} {o : Obj} {v : Ctor α} (hk : (snapshot g).carried[k]? = some (o, v)) :
    (Model.joined g).heap k = { Model.instantiate (Model.fresh.denotes (snapshot g)) o v with
      parent := adoptedBy
        (fun a => ((Model.fresh.allocate (firstMirrors (snapshot g))).heap a).children) k
        (List.range' 0 (firstMirrors (snapshot g)).length) none } := heap_build_fresh hk

theorem next_joined : (Model.joined g).next = (snapshot g).carried.length := by
  have hbuild : (Model.fresh.build (snapshot g)).next = 0 + (firstMirrors (snapshot g)).length := by
    rw [build_fresh]
    rfl
  show (Model.fresh.build (snapshot g)).next = _
  rw [hbuild, Nat.zero_add]
  exact List.length_map _

theorem objects_joined (id : ℕ) : (Model.joined g).objects.get id
    = if id = 0 then some .game else (g.objects.get id).map (firstImage g) := by
  show ((g.objects.map (firstImage g)).set 0 .game).get id = _
  rw [Dict.get_set, Dict.get_map]

/-- What is there for an object of a snapshot. -/
theorem firstImage_eq {o : Obj} {k : ℕ}
    (hk : (snapshot g).carried.findIdx? (fun p => p.1 = o) = some k) :
    firstImage g o = .mirror k := by
  show (((snapshot g).carried.findIdx? (fun p => decide (p.1 = o))).map
    (fun k => Ref.mirror (Model.fresh (α := α).next + k))).getD .game = _
  rw [hk]
  exact congrArg Ref.mirror (Nat.zero_add k)

include h in
/-- **The mirror of an object that has an id**, in a client that has received
the snapshot. -/
theorem exists_joined {id : ℕ} {o : Obj} (ho : g.objects.get id = some o) :
    ∃ a, firstImage g o = .mirror a ∧ a < (Model.joined g).next
      ∧ ((Model.joined g).heap a).Of g id o := by
  obtain ⟨k, v, hfind, hk, hv⟩ := exists_place h ⟨id, ho⟩
  refine ⟨k, firstImage_eq hfind, ?_, ?_⟩
  · rw [next_joined]
    exact (List.getElem?_eq_some_iff.mp hk).1
  · have hid := h.id_of id o ho
    rw [heap_joined hk]
    cases o with
    | game => cases hv
    | entity e =>
      obtain rfl := Option.some.inj hv
      exact ⟨rfl, hid, rfl, nofun⟩
    | player p =>
      obtain rfl := Option.some.inj hv
      refine ⟨rfl, hid, rfl, fun p' hp => ?_⟩
      obtain rfl := Obj.player.inj hp
      rfl

/-- The table that the loop over `objects` fills. -/
theorem get_foldl_indexEntry (c : Model α) {rs : List Ref} (hrs : ∀ r ∈ rs, c.idOf r ≠ none)
    (t : Dict Ref ℕ) (r : Ref) : (rs.foldl (fun t o => Model.indexEntry t c o) t).get r
      = if r ∈ rs then c.idOf r else t.get r := by
  induction rs generalizing t with
  | nil => rfl
  | cons r' rs ih =>
    obtain ⟨id, hid⟩ := Option.ne_none_iff_exists'.mp (hrs r' List.mem_cons_self)
    have hentry : Model.indexEntry t c r' = t.set r' id := by
      unfold Model.indexEntry
      rw [hid]
    rw [List.foldl_cons, hentry, ih (fun q hq => hrs q (List.mem_cons_of_mem _ hq)), Dict.get_set]
    rcases eq_or_ne r r' with rfl | hr
    · simp [hid]
    · simp [hr]

include h in
/-- **`r_objects` is the inverse of `objects`** when the snapshot has been
received. -/
theorem inverse_joined : Dict.Inverse (Model.joined g).objects (Model.joined g).rObjects := by
  let c := Model.joined g
  -- what is in the table has the id it is under
  have hidOf : ∀ id r, c.objects.get id = some r → c.idOf r = some id := by
    intro id r hr
    rw [objects_joined] at hr
    split_ifs at hr with hid
    · obtain rfl := Option.some.inj hr
      exact congrArg some hid.symm
    · obtain ⟨o, ho, rfl⟩ := Option.map_eq_some_iff.mp hr
      obtain ⟨a, ha, -, hof⟩ := exists_joined h ho
      rw [ha]
      exact hof.id
  have hvalues : ∀ r ∈ c.objects.values, c.idOf r ≠ none := by
    intro r hr
    obtain ⟨id, hid⟩ := Dict.mem_values.mp hr
    rw [hidOf id r hid]
    simp
  have hget : ∀ r, c.rObjects.get r = if r ∈ c.objects.values then c.idOf r else none :=
    fun r => get_foldl_indexEntry c hvalues .empty r
  intro id r
  rw [hget]
  constructor
  · intro hr
    rw [if_pos (Dict.mem_values.mpr ⟨id, hr⟩), hidOf id r hr]
  · intro hr
    split_ifs at hr with hmem
    obtain ⟨id', hid'⟩ := Dict.mem_values.mp hmem
    rw [hidOf id' r hid'] at hr
    rwa [← Option.some.inj hr]

include h in
/-- **Who has received the snapshot is in step.** -/
theorem indexed_joined : Indexed g (Model.joined g) where
  inGame := ⟨rfl, objects_joined 0⟩
  mirror id o ho := by
    obtain ⟨a, ha, hlt, hof⟩ := exists_joined h ho
    refine ⟨a, ?_, hlt, hof⟩
    have hpos : id ≠ 0 := fun h0 => by
      rw [h0, h.pos] at ho
      cases ho
    rw [objects_joined, if_neg hpos, ho, ← ha]
    rfl
  only id r hr := by
    rw [objects_joined] at hr
    split_ifs at hr with hid
    · exact Or.inl hid
    · obtain ⟨o, ho, -⟩ := Option.map_eq_some_iff.mp hr
      exact Or.inr ⟨o, ho⟩
  inverse := inverse_joined h

include h in
/-- A snapshot mentions no ids. -/
theorem honoured_snapshot (c : Model α) : Honoured c (snapshot g) := by
  intro id o hm
  obtain ⟨o', ho', -⟩ := exists_of_mention h hm
  cases ho'

include h in
/-- **A client receives the snapshot, and is in step then.** -/
theorem replays_snapshot {rank : Kind → ℕ} (hrank : ∀ a b, fits a b → rank a < rank b) :
    Replays .fresh [snapshot g] (Model.joined g) :=
  .single (honoured_snapshot h .fresh) (receive_snapshot h hrank)

end Receive

end Client

end Felt
