import Felt.Client.Replication

/-!
# What an id means to a client that is behind

A client that has not received everything knows objects the server has
deleted, under ids that may have been given out again. What is under an id
then is the object the client has there, or nothing – unless a message that
the client is still to receive brings something else under the id, or the
client has received that (`meant_of_reaches`).

This rests on what a single message can do: whatever is under an id when it
has been received was there before, or came with it.

So an old id is one of three things: it is what it was, it is nothing, or it has
been given to something else of which the client is told sooner or later. The
server does not tell which, and carries out a request for whatever is there now.
-/

namespace Felt

namespace Client

open Box (Point)

open Server (Game Obj Kind Msg Packed Call Policy Sound Deed Site)

variable {α : Type} {c c' c₁ d : Model α} {m : Msg α}

/-! ## What a message brings -/

/-- **The message brings something under the id.** -/
def Brings (m : Msg α) (id : ℕ) : Prop := ∃ p ∈ m.carried, p.2.id = some id

/-- **The game in a message is in order**: what it has under an id is carried,
and has that id. -/
def InOrder (m : Msg α) : Prop :=
  ∀ objects fields players, m.call = .game objects fields players → ∀ id p,
    objects.get id = some p → ∃ o, p = .whole o ∧ ∀ v, (o, v) ∈ m.carried → v.id = some id

/-- What is under an id was made, and has the id. -/
def Tidy (c : Model α) : Prop :=
  ∀ id r, c.objects.get id = some r → c.idOf r = some id ∧ ∀ a, r = .mirror a → a < c.next

/-! ## Making mirrors -/

theorem Reshaped.trans (h : Reshaped c c₁) (h' : Reshaped c₁ c') : Reshaped c c' where
  loaded := h'.loaded.trans h.loaded
  next := h'.next.trans h.next
  objects id := (h'.objects id).trans (h.objects id)
  rObjects r := (h'.rObjects r).trans (h.rObjects r)
  object a := (h'.object a).trans (h.object a)
  id a := (h'.id a).trans (h.id a)
  kind a := (h'.kind a).trans (h.kind a)
  name a := (h'.name a).trans (h.name a)

theorem Reshaped.idOf (h : Reshaped c c') (r : Ref) : c'.idOf r = c.idOf r := by
  cases r with
  | game => rfl
  | mirror a => exact h.id a

/-- The children of a mirror are told who their parent is. -/
theorem reshaped_adopt (a : ℕ) (c : Model α) : Reshaped c (c.adopt a) := by
  have hfold : ∀ (rs : List Ref) (d : Model α), Reshaped d (rs.foldl
      (fun c child => c.mapMirror child (fun v => { v with parent := some (.mirror a) })) d) := by
    intro rs
    induction rs with
    | nil => exact fun d => .refl d
    | cons r rs ih =>
      exact fun d => (Reshaped.mapMirror d r (f := fun v => { v with parent := some (.mirror a) })
        (fun _ => rfl) (fun _ => rfl) (fun _ => rfl) (fun _ => rfl)).trans (ih _)
  exact hfold _ c

/-- **Mirrors are being made**, from `c`: the tables have what they had, or
mirrors that were made. -/
structure Making (vs : List (Mirror α)) (c d : Model α) : Prop where
  /-- So many mirrors were made. -/
  next : d.next = c.next + vs.length
  /-- The mirrors there were are the same. -/
  old : ∀ a, a < c.next → (d.heap a).object = (c.heap a).object ∧ (d.heap a).id = (c.heap a).id
    ∧ (d.heap a).kind = (c.heap a).kind
  /-- The new ones are what was made. -/
  new : ∀ k (hk : k < vs.length), (d.heap (c.next + k)).object = vs[k].object
    ∧ (d.heap (c.next + k)).id = vs[k].id ∧ (d.heap (c.next + k)).kind = vs[k].kind
  /-- What is under an id was, or was made, and has the id. -/
  objects : ∀ id r, d.objects.get id = some r → c.objects.get id = some r
    ∨ ∃ k, ∃ hk : k < vs.length, r = .mirror (c.next + k) ∧ vs[k].id = some id

theorem making_allocate (vs : List (Mirror α)) (c : Model α) : Making vs c (c.allocate vs) where
  next := rfl
  old a ha := by
    have hheap : (c.allocate vs).heap a = c.heap a := if_pos ha
    rw [hheap]
    exact ⟨rfl, rfl, rfl⟩
  new k hk := by
    have hheap : (c.allocate vs).heap (c.next + k)
        = vs.getD (c.next + k - c.next) (c.heap (c.next + k)) := if_neg (by omega)
    have hget : vs.getD k (c.heap (c.next + k)) = vs[k] := by simp [hk]
    rw [hheap, Nat.add_sub_cancel_left, hget]
    exact ⟨rfl, rfl, rfl⟩
  objects id r hr := Or.inl hr

theorem Making.reshaped {vs : List (Mirror α)} (h : Making vs c d) (hd : Reshaped d c') :
    Making vs c c' where
  next := hd.next.trans h.next
  old a ha := by
    rw [hd.object, hd.id, hd.kind]
    exact h.old a ha
  new k hk := by
    rw [hd.object, hd.id, hd.kind]
    exact h.new k hk
  objects id r hr := h.objects id r ((hd.objects id).symm.trans hr)

/-- A mirror that was made is registered. -/
theorem Making.register {vs : List (Mirror α)} (h : Making vs c d) {k : ℕ} (hk : k < vs.length) :
    Making vs c (d.register (c.next + k)) := by
  unfold Model.register
  rw [(h.new k hk).2.1]
  cases d.loaded with
  | false => exact h
  | true =>
    cases hid : vs[k].id with
    | none => exact h
    | some id =>
      refine ⟨h.next, h.old, h.new, fun id' r hr => ?_⟩
      change (d.objects.set id (.mirror (c.next + k))).get id' = some r at hr
      rw [Dict.get_set] at hr
      split_ifs at hr with hid'
      · exact Or.inr ⟨k, hk, (Option.some.inj hr).symm, hid'.symm ▸ hid⟩
      · exact h.objects id' r hr

/-- **What a client has when everything has been made that a message
carries.** -/
theorem making_build (m : Msg α) (c : Model α) : Making
    (m.carried.map (fun p => Model.instantiate (c.denotes m) p.1 p.2)) c (c.build m) := by
  set vs := m.carried.map (fun p => Model.instantiate (c.denotes m) p.1 p.2) with hvs
  have hfold : ∀ (n k : ℕ) (d : Model α), k + n = vs.length → Making vs c d →
      Making vs c ((List.range' (c.next + k) n).foldl (fun c a => c.enter a) d) := by
    intro n
    induction n with
    | zero => exact fun k d _ h => h
    | succ n ih =>
      intro k d hk h
      rw [List.range'_succ, List.foldl_cons]
      refine ih (k + 1) _ (by omega) ?_
      exact (h.reshaped (reshaped_adopt _ d)).register (by omega)
  exact hfold vs.length 0 _ (Nat.zero_add _) (making_allocate vs c)

theorem instantiate_id (f : Packed → Ref) (o : Obj) (v : Server.Ctor α) :
    (Model.instantiate f o v).id = v.id := by
  cases v <;> rfl

/-- **What is under an id when the mirrors are made** was there, or came with
the message. -/
theorem build_objects {id : ℕ} {r : Ref} (h : (c.build m).objects.get id = some r) :
    c.objects.get id = some r ∨ Brings m id ∧ (c.build m).idOf r = some id
      ∧ ∀ a, r = .mirror a → a < (c.build m).next := by
  have hmaking := making_build m c
  refine (hmaking.objects id r h).imp_right (fun ⟨k, hk, hr, hid⟩ => ⟨?_, ?_, fun a ha => ?_⟩)
  · rw [List.getElem_map, instantiate_id] at hid
    exact ⟨_, List.getElem_mem _, hid⟩
  · rw [hr]
    exact (hmaking.new k hk).2.1.trans hid
  · rw [hr] at ha
    obtain rfl := Ref.mirror.inj ha
    rw [hmaking.next]
    omega

/-- Making mirrors leaves a client tidy. -/
theorem Tidy.build (h : Tidy c) (m : Msg α) : Tidy (c.build m) := by
  intro id r hr
  rcases build_objects hr with hold | ⟨-, hnew⟩
  · obtain ⟨hid, hlt⟩ := h id r hold
    have hmaking := making_build m c
    refine ⟨?_, fun a ha => (hlt a ha).trans_le (by rw [hmaking.next]; omega)⟩
    cases r with
    | game => exact hid
    | mirror a => exact ((hmaking.old a (hlt a rfl)).2.1).trans hid
  · exact hnew

/-! ## What a method leaves under an id -/

/-- **The method leaves under an id what was there**, and the mirrors what
they are. -/
structure Leaves (c c' : Model α) : Prop where
  /-- As many mirrors. -/
  next : c'.next = c.next
  /-- They were made of the same objects. -/
  object : ∀ a, (c'.heap a).object = (c.heap a).object
  /-- They have the same ids. -/
  id : ∀ a, (c'.heap a).id = (c.heap a).id
  /-- They have the same classes. -/
  kind : ∀ a, (c'.heap a).kind = (c.heap a).kind
  /-- What is under an id was there. -/
  objects : ∀ id r, c'.objects.get id = some r → c.objects.get id = some r

theorem Reshaped.leaves (h : Reshaped c c') : Leaves c c' :=
  ⟨h.next, h.object, h.id, h.kind, fun id _ hr => (h.objects id).symm.trans hr⟩

theorem Leaves.trans (h : Leaves c c₁) (h' : Leaves c₁ c') : Leaves c c' :=
  ⟨h'.next.trans h.next, fun a => (h'.object a).trans (h.object a),
    fun a => (h'.id a).trans (h.id a), fun a => (h'.kind a).trans (h.kind a),
    fun id r hr => h.objects id r (h'.objects id r hr)⟩

theorem Leaves.idOf (h : Leaves c c') (r : Ref) : c'.idOf r = c.idOf r := by
  cases r with
  | game => rfl
  | mirror a => exact h.id a

theorem Leaves.tidy (h : Leaves c c') (hc : Tidy c) : Tidy c' := by
  intro id r hr
  rw [h.idOf, h.next]
  exact hc id r (h.objects id r hr)

theorem reshaped_remove (self child : Ref) (c : Model α) : Reshaped c (c.remove self child) :=
  (Reshaped.mapMirror c child (f := fun v => { v with parent := none }) (fun _ => rfl)
    (fun _ => rfl) (fun _ => rfl) (fun _ => rfl)).trans
    (.mapMirror _ self (f := fun v => { v with children := v.children.erase child }) (fun _ => rfl)
      (fun _ => rfl) (fun _ => rfl) (fun _ => rfl))

theorem reshaped_add (self child : Ref) (c : Model α) : Reshaped c (c.add self child) :=
  (Reshaped.mapMirror c child (f := fun v => { v with parent := some self }) (fun _ => rfl)
    (fun _ => rfl) (fun _ => rfl) (fun _ => rfl)).trans
    (.mapMirror _ self (f := fun v => { v with children := v.children ++ [child] }) (fun _ => rfl)
      (fun _ => rfl) (fun _ => rfl) (fun _ => rfl))

theorem reshaped_leaveParent (self : Ref) (parent : Option Ref) (c : Model α) :
    Reshaped c (c.leaveParent self parent) := by
  unfold Model.leaveParent
  split
  · split_ifs
    · exact reshaped_remove _ self c
    · exact .refl c
  · exact .refl c

theorem reshaped_joinParent {self : Ref} {parent : Option Ref}
    (h : c.joinParent self parent = .ok c') : Reshaped c c' := by
  cases parent with
  | none =>
    obtain rfl := Except.ok.inj h
    exact .refl c
  | some p =>
    unfold Model.joinParent at h
    simp only at h
    split_ifs at h
    · obtain rfl := Except.ok.inj h
      exact .refl c
    · obtain rfl := Except.ok.inj h
      exact reshaped_add p self c

/-- Moving a mirror. -/
theorem reshaped_moveto {self : Ref} {parent : Option Ref} {x y : Option Number}
    (h : c.moveto self parent x y = .ok c') : Reshaped c c' := by
  cases self with
  | game => cases h
  | mirror a =>
    rcases hk : (c.heap a).kind with _ | k
    · unfold Model.moveto at h
      simp only [hk] at h
      cases h
    · by_cases hfield : k = .field
      · subst hfield
        unfold Model.moveto at h
        simp only [hk] at h
        cases h
      · rw [moveto_eq parent x y hk hfield] at h
        rcases hjoin : (c.departed (.mirror a) parent x y).joinParent (.mirror a) parent with e | c₁
        · rw [hjoin] at h
          cases h
        · rw [hjoin] at h
          obtain rfl := Except.ok.inj h
          exact ((reshaped_leaveParent _ _ c).trans ((Reshaped.mapMirror _ (.mirror a)
            (f := Mirror.at x y) (fun _ => rfl) (fun _ => rfl) (fun _ => rfl)
            (fun _ => rfl)).trans (reshaped_joinParent hjoin))).trans
            (.mapMirror c₁ (.mirror a) (f := fun v => { v with parent := parent }) (fun _ => rfl)
              (fun _ => rfl) (fun _ => rfl) (fun _ => rfl))

theorem reshaped_set {self : Ref} {key : Server.Key} {value : Option Ref}
    (h : c.set self key value = .ok c') : Reshaped c c' := by
  cases self with
  | game => cases h
  | mirror a =>
    cases key with
    | held =>
      obtain rfl := Except.ok.inj h
      exact .mapMirror c _ (f := fun v => { v with held := value }) (fun _ => rfl) (fun _ => rfl)
        (fun _ => rfl) (fun _ => rfl)
    | heldBy =>
      obtain rfl := Except.ok.inj h
      exact .mapMirror c _ (f := fun v => { v with heldBy := value }) (fun _ => rfl) (fun _ => rfl)
        (fun _ => rfl) (fun _ => rfl)

theorem leaves_addPlayer {r : Ref} (h : c.addPlayer r = .ok c') : Leaves c c' := by
  cases r with
  | game => cases h
  | mirror a =>
    obtain rfl := Except.ok.inj h
    exact (Reshaped.setPlayers c _).leaves

theorem leaves_deleteObject {r : Ref} (h : c.deleteObject r = .ok c') : Leaves c c' := by
  unfold Model.deleteObject at h
  rcases hd : c.delete r with e | u
  · rw [hd] at h
    cases h
  · rw [hd] at h
    rcases hid : c.idOf r with _ | id
    · rw [hid] at h
      cases h
    · rw [hid] at h
      obtain rfl := Except.ok.inj h
      refine ⟨rfl, fun _ => rfl, fun _ => rfl, fun _ => rfl, fun id' r' hr => ?_⟩
      change (c.objects.erase id).get id' = some r' at hr
      rw [Dict.get_erase] at hr
      split_ifs at hr
      exact hr

/-! ## What a message leaves under an id -/

/-- **What a message makes of a client.** -/
structure Hears (m : Msg α) (c c' : Model α) : Prop where
  /-- The client is tidy. -/
  tidy : Tidy c'
  /-- The mirrors there were are there. -/
  next : c.next ≤ c'.next
  /-- They are what they were. -/
  old : ∀ a, a < c.next → (c'.heap a).object = (c.heap a).object
    ∧ (c'.heap a).id = (c.heap a).id ∧ (c'.heap a).kind = (c.heap a).kind
  /-- What is under an id was there, or came with the message. -/
  objects : ∀ id a, c'.objects.get id = some (.mirror a) →
    c.objects.get id = some (.mirror a) ∨ Brings m id

/-- What is carried is made at its place. -/
theorem find_whole_eq_some {o : Obj} {r : Ref} (h : c.find m (.whole o) = some r) :
    ∃ k, ∃ hk : k < m.carried.length, r = .mirror (c.next + k) ∧ m.carried[k].1 = o := by
  obtain ⟨k, hk, hr⟩ := Option.map_eq_some_iff.mp h
  obtain ⟨hlt, hof, -⟩ := List.findIdx?_eq_some_iff_getElem.mp hk
  exact ⟨k, hlt, hr.symm, of_decide_eq_true hof⟩

/-- The id of what is made at a place. -/
theorem idOf_build {k : ℕ} (hk : k < m.carried.length) :
    (c.build m).idOf (.mirror (c.next + k)) = m.carried[k].2.id := by
  have hmaking := making_build m c
  refine (hmaking.new k (by rwa [List.length_map])).2.1.trans ?_
  rw [List.getElem_map, instantiate_id]

/-- **What is mentioned** is under its id, or came with the message. -/
theorem Tidy.of_find (h : Tidy c) {o : Packed} {r : Ref} {id : ℕ} (ho : c.find m o = some r)
    (hid : (c.build m).idOf r = some id) : (c.objects.get id = some r ∨ Brings m id)
      ∧ ∀ a, r = .mirror a → a < (c.build m).next := by
  have hmaking := making_build m c
  cases o with
  | known id' o =>
    have hget : c.objects.get id' = some r := by
      unfold Model.find at ho
      split_ifs at ho
      exact ho
    obtain ⟨hid', hlt⟩ := h id' r hget
    have hsame : (c.build m).idOf r = c.idOf r := by
      cases r with
      | game => rfl
      | mirror a => exact (hmaking.old a (hlt a rfl)).2.1
    rw [hsame, hid'] at hid
    refine ⟨Or.inl (Option.some.inj hid ▸ hget), fun a ha => (hlt a ha).trans_le ?_⟩
    rw [hmaking.next]
    omega
  | whole o =>
    obtain ⟨k, hk, rfl, -⟩ := find_whole_eq_some ho
    rw [idOf_build hk] at hid
    refine ⟨Or.inr ⟨_, List.getElem_mem hk, hid⟩, fun a ha => ?_⟩
    obtain rfl := Ref.mirror.inj ha
    rw [hmaking.next, List.length_map]
    omega

/-- What only leaves what was there adds nothing to what the message brought. -/
theorem Hears.of_leaves (h : Tidy c) (hl : Leaves (c.build m) c') : Hears m c c' := by
  have hmaking := making_build m c
  refine ⟨hl.tidy (h.build m), ?_, fun a ha => ?_, fun id a ha => ?_⟩
  · rw [hl.next, hmaking.next]
    omega
  · rw [hl.object, hl.id, hl.kind]
    exact hmaking.old a ha
  · exact (build_objects (hl.objects id _ ha)).imp_right And.left

/-- **An object is added** that the message mentions. -/
theorem Hears.addObject (h : Tidy c) {o : Packed} (ho : c.find m o ≠ none)
    (hadd : (c.build m).addObject (c.denotes m o) = .ok c') : Hears m c c' := by
  obtain ⟨r, hr⟩ := Option.ne_none_iff_exists'.mp ho
  have hdenotes : c.denotes m o = r := by
    unfold Model.denotes
    rw [hr]
    rfl
  rw [hdenotes] at hadd
  unfold Model.addObject at hadd
  rcases hid : (c.build m).idOf r with _ | id
  · rw [hid] at hadd
    cases hadd
  · rw [hid] at hadd
    obtain rfl := Except.ok.inj hadd
    obtain ⟨hold, hlt⟩ := h.of_find hr hid
    have hbuild := Hears.of_leaves (m := m) h (Reshaped.refl (c.build m)).leaves
    have hset : ∀ id' r', ((c.build m).objects.set id r).get id' = some r' →
        id' = id ∧ r' = r ∨ (c.build m).objects.get id' = some r' := fun id' r' hr' => by
      rw [Dict.get_set] at hr'
      split_ifs at hr' with hid'
      · exact Or.inl ⟨hid', (Option.some.inj hr').symm⟩
      · exact Or.inr hr'
    refine ⟨fun id' r' hr' => ?_, hbuild.next, hbuild.old, fun id' a ha => ?_⟩
    · rcases hset id' r' hr' with ⟨rfl, rfl⟩ | hr''
      · exact ⟨hid, hlt⟩
      · exact hbuild.tidy id' r' hr''
    · rcases hset id' _ ha with ⟨rfl, rfl⟩ | ha'
      · exact hold
      · exact hbuild.objects id' a ha'

/-- **A game is received** that is in order. -/
theorem Hears.game (h : Tidy c) {objects : Dict ℕ Packed} {fields players : Dict Bytes Packed}
    (hcall : m.call = .game objects fields players) (hm : InOrder m)
    (hfind : ∀ o ∈ m.mentions, c.find m o ≠ none) :
    Hears m c ((c.build m).game (objects.map (c.denotes m)) (fields.map (c.denotes m))
      (players.map (c.denotes m))) := by
  have hbuild := Hears.of_leaves (m := m) h (Reshaped.refl (c.build m)).leaves
  have hmaking := making_build m c
  -- whatever is in the table was made at the place of what is carried
  have hentry : ∀ id r, ((objects.map (c.denotes m)).set 0 .game).get id = some r →
      id = 0 ∧ r = .game ∨ ∃ k, ∃ hk : k < m.carried.length, r = .mirror (c.next + k)
        ∧ m.carried[k].2.id = some id := by
    intro id r hr
    rw [Dict.get_set] at hr
    split_ifs at hr with hid
    · exact Or.inl ⟨hid, (Option.some.inj hr).symm⟩
    · rw [Dict.get_map] at hr
      obtain ⟨p, hp, hpr⟩ := Option.map_eq_some_iff.mp hr
      obtain ⟨o, rfl, hids⟩ := hm objects fields players hcall id p hp
      have hmem : Packed.whole o ∈ m.mentions := by
        refine List.mem_append_left _ ?_
        rw [hcall]
        exact List.mem_append_left _ (List.mem_append_left _ (Dict.mem_values.mpr ⟨id, hp⟩))
      obtain ⟨r', hr'⟩ := Option.ne_none_iff_exists'.mp (hfind _ hmem)
      obtain ⟨k, hk, hrk, hko⟩ := find_whole_eq_some hr'
      have hdenotes : c.denotes m (.whole o) = r' := by
        unfold Model.denotes
        rw [hr']
        rfl
      rw [hdenotes] at hpr
      refine Or.inr ⟨k, hk, hpr.symm.trans hrk, hids _ ?_⟩
      rw [← hko]
      exact List.getElem_mem hk
  refine ⟨fun id r hr => ?_, hbuild.next, hbuild.old, fun id a ha => ?_⟩
  · rcases hentry id r hr with ⟨rfl, rfl⟩ | ⟨k, hk, rfl, hid⟩
    · exact ⟨rfl, fun a ha => by cases ha⟩
    · refine ⟨(idOf_build hk).trans hid, fun a ha => ?_⟩
      obtain rfl := Ref.mirror.inj ha
      show _ < (c.build m).next
      rw [hmaking.next, List.length_map]
      omega
  · rcases hentry id _ ha with ⟨-, hr⟩ | ⟨k, hk, -, hid⟩
    · cases hr
    · exact Or.inr ⟨_, List.getElem_mem hk, hid⟩

/-- **What a message leaves under an id** was there before, or came with it. -/
theorem Tidy.receive (h : Tidy c) (hm : InOrder m) (hr : c.receive m = .ok c') : Hears m c c' := by
  obtain ⟨-, hfind, -, hdispatch⟩ := Model.receive_eq_ok hr
  have hmention : ∀ o ∈ m.call.mentions, c.find m o ≠ none := fun o ho =>
    hfind o (List.mem_append_left _ ho)
  rcases hcall : m.call with ⟨self, o⟩ | ⟨self, o⟩ | ⟨self, p⟩ | ⟨self, key, value⟩ |
    ⟨self, parent, x, y⟩ | text | ⟨who, text⟩ | ⟨objects, fields, players⟩
  all_goals
    rw [hcall] at hdispatch hmention
    unfold Model.dispatch at hdispatch
    simp only at hdispatch
  · split_ifs at hdispatch
    exact .addObject h (hmention o (by simp [Server.Call.mentions])) hdispatch
  · split_ifs at hdispatch
    exact .of_leaves h (leaves_deleteObject hdispatch)
  · split_ifs at hdispatch
    exact .of_leaves h (leaves_addPlayer hdispatch)
  · exact .of_leaves h (reshaped_set hdispatch).leaves
  · exact .of_leaves h (reshaped_moveto hdispatch).leaves
  · obtain rfl := Except.ok.inj hdispatch
    exact .of_leaves h (Reshaped.refl _).leaves
  · obtain rfl := Except.ok.inj hdispatch
    exact .of_leaves h (Reshaped.refl _).leaves
  · obtain rfl := Except.ok.inj hdispatch
    exact .game h hcall hm hfind

/-- **What messages leave under an id** that none of them brings was there
before, and is the mirror it was. -/
theorem Tidy.replays {ms : List (Msg α)} (h : Tidy c) (hms : ∀ m ∈ ms, InOrder m)
    (hr : Replays c ms c') : Tidy c' ∧ ∀ id a, c'.objects.get id = some (.mirror a) →
      (∃ m ∈ ms, Brings m id) ∨ c.objects.get id = some (.mirror a)
        ∧ (c'.heap a).object = (c.heap a).object ∧ (c'.heap a).kind = (c.heap a).kind := by
  induction hr with
  | nil c => exact ⟨h, fun id a ha => Or.inr ⟨ha, rfl, rfl⟩⟩
  | @cons c c₁ c' m ms _ hr _ ih =>
    have hhears := h.receive (hms m List.mem_cons_self) hr
    obtain ⟨htidy, hids⟩ := ih hhears.tidy (fun m' hm' => hms m' (List.mem_cons_of_mem m hm'))
    refine ⟨htidy, fun id a ha => ?_⟩
    rcases hids id a ha with ⟨m', hm', hb⟩ | ⟨ha₁, hobject, hkind⟩
    · exact Or.inl ⟨m', List.mem_cons_of_mem m hm', hb⟩
    · rcases hhears.objects id a ha₁ with ha₀ | hb
      · obtain ⟨hobject₀, -, hkind₀⟩ := hhears.old a ((h id _ ha₀).2 a rfl)
        exact Or.inr ⟨ha₀, hobject.trans hobject₀, hkind.trans hkind₀⟩
      · exact Or.inl ⟨m, List.mem_cons_self, hb⟩

/-! ## What the server sends -/

theorem inOrder_of_call (h : ∀ objects fields players, m.call ≠ .game objects fields players) :
    InOrder m := fun objects fields players hcall => absurd hcall (h objects fields players)

/-- What is broadcast of an update is no game. -/
theorem inOrder_of_update {P : Policy} {L : Dict.Length Obj} {g g' : Game α} {ms : List (Msg α)}
    (hu : Server.Update P L g ms g') : ∀ m ∈ ms, InOrder m := by
  cases hu with
  | @quiet call hcall =>
    refine List.forall_mem_singleton.mpr (inOrder_of_call (fun objects fields players h => ?_))
    have hgame : call = .game objects fields players := h
    rw [hgame] at hcall
    cases hcall
  | deleted _ _ _ _ =>
    exact List.forall_mem_cons.mpr ⟨inOrder_of_call nofun,
      List.forall_mem_singleton.mpr (inOrder_of_call nofun)⟩
  | placed _ => exact List.forall_mem_nil _
  | named _ => exact List.forall_mem_nil _
  | returned _ _ => exact List.forall_mem_nil _
  | tweak _ _ => exact List.forall_mem_nil _
  | load => exact List.forall_mem_nil _
  | _ => exact List.forall_mem_singleton.mpr (inOrder_of_call nofun)

theorem inOrder_of_updates {P : Policy} {L : Dict.Length Obj} {g g' : Game α} {ms : List (Msg α)}
    (hus : Server.Updates P L g ms g') : ∀ m ∈ ms, InOrder m := by
  induction hus with
  | nil => exact List.forall_mem_nil _
  | cons hu _ ih =>
    exact fun m hm => (List.mem_append.mp hm).elim (inOrder_of_update hu m) (ih m)

/-- **The snapshot is in order.** -/
theorem inOrder_snapshot {fits : Kind → Kind → Prop} {g : Game α} (h : Sound fits g) :
    InOrder (Server.snapshot g) := by
  intro objects fields players hcall id p hp
  obtain ⟨rfl, -, -⟩ := Server.Call.game.inj hcall
  rw [Dict.get_map] at hp
  obtain ⟨o, ho, rfl⟩ := Option.map_eq_some_iff.mp hp
  refine ⟨o, rfl, fun v hv => ?_⟩
  obtain ⟨o', -, hmem⟩ := List.mem_flatMap.mp hv
  obtain ⟨v', hv', heq⟩ := List.mem_map.mp hmem
  obtain ⟨rfl, rfl⟩ := Prod.mk.inj heq
  rw [← h.id_of id o' ho]
  cases o' with
  | game => cases Option.mem_toList.mp hv'
  | entity e =>
    obtain rfl := Option.some.inj (Option.mem_toList.mp hv')
    rfl
  | player p =>
    obtain rfl := Option.some.inj (Option.mem_toList.mp hv')
    rfl

section World

variable {P : Policy} {L : Dict.Length Obj} {g g' : Game (Point Obj)}
  {ms : List (Msg (Point Obj))}

theorem inOrder_of_stretch (h : Sound Server.Kind.Below g) (hsent : g.sent = [])
    (hs : Server.Stretch Policy.shipped L g g') : ∀ m ∈ g'.sent, InOrder m := by
  obtain ⟨ms, hms⟩ := updates_of_chain (P := Policy.shipped) h ne_field_of_below id hs.chain
  have hms' := hms.sent h.numbered
  rw [hsent] at hms'
  rw [hms']
  exact inOrder_of_updates hms

theorem inOrder_of_spell (h : Sound Server.Kind.Below g) (hsent : g.sent = [])
    (hs : Server.Spell Policy.shipped L g ms g') : ∀ m ∈ ms, InOrder m := by
  induction hs with
  | nil => exact List.forall_mem_nil _
  | cons hs _ ih =>
    have hsound : Sound Policy.shipped.fits _ :=
      (Sound.chain (P := Policy.shipped) h hs.chain).settled
    exact fun m hm => (List.mem_append.mp hm).elim (inOrder_of_stretch h hsent hs m)
      (ih hsound rfl m)

theorem inOrder_of_text (L : Dict.Length Obj) {call : Server.Call (Point Obj)}
    (hcall : call.isText = true)
    (h : Sound Server.Kind.Below g) (hsent : g.sent = []) :
    ∀ m ∈ (g.say (fun _ => call)).sent, InOrder m :=
  inOrder_of_stretch (L := L) h hsent (.still (.single (.say hcall)) (fun _ _ hp => hp))

/-! ## Every world -/

/-- Messages that none of them is out of order, for a client that is tidy. -/
structure Steadfast (W : World) (w : ℕ) : Prop where
  /-- The client is tidy. -/
  tidy : Tidy (W.client w)
  /-- What it is still to receive is in order. -/
  inOrder : ∀ m ∈ W.pending w, InOrder m

variable {S : Site} {fuel : ℕ} {games : List Bytes} {W : World}

/-- In every world the clients have the ids. -/
theorem synced_indexed (hW : Reached (serving S fuel (fun d s => d.Once S s))
    (Server.State.opening S games) W) : Synced Policy.shipped (Indexed (α := Point Obj)) W := by
  refine synced_of_reaches (follows_indexed S.length) ?_ (synced_opening rfl S games) hW
  rintro W' sent s' h ⟨d, hd, honce, hl, rfl⟩
  exact ⟨Server.serves_of_leaves rfl h.manned h.seats h.unmade (fun v hv => (h.guest v hv).2.1)
    hd honce (fun _ => Server.may_shipped d _) hl, fun _ => trivial⟩

/-- **A step of the server** sends what is in order. -/
theorem Steadfast.serve (h : Synced Policy.shipped (Indexed (α := Point Obj)) W)
    (hW : ∀ w, W.server.LoggedIn w → Steadfast W w) {sent : ℕ → List (Msg (Point Obj))}
    {s' : Server.State (Point Obj)} (hs : Server.Serves Policy.shipped L W.server sent s') {w : ℕ}
    (hw : s'.LoggedIn w) : Steadfast ⟨s', fun w => W.inbox w ++ sent w, W.client⟩ w := by
  have hpending : ∀ ms, sent w ++ (s'.workers w).sendq = (W.server.workers w).sendq ++ ms →
      (W.inbox w ++ sent w) ++ (s'.workers w).sendq = W.pending w ++ ms := fun ms hms => by
    unfold World.pending
    rw [List.append_assoc, hms, List.append_assoc]
  have hold : ∀ ms, W.server.LoggedIn w →
      sent w ++ (s'.workers w).sendq = (W.server.workers w).sendq ++ ms → (∀ m ∈ ms, InOrder m) →
        Steadfast ⟨s', fun w => W.inbox w ++ sent w, W.client⟩ w := fun ms hin hms hall => by
    refine ⟨(hW w hin).tidy, fun m hm => ?_⟩
    change m ∈ (W.inbox w ++ sent w) ++ (s'.workers w).sendq at hm
    rw [hpending ms hms] at hm
    exact (List.mem_append.mp hm).elim ((hW w hin).inOrder m) (hall m)
  cases hs.delivers with
  | cast ms hspell hqueue =>
    obtain ⟨hin, hq⟩ := hqueue w hw
    exact hold ms hin hq (inOrder_of_spell h.manned.sound h.manned.sent (hspell ⟨w, hin⟩))
  | welcome v g hcall hguest hsound hspell hgame hself hothers =>
    have htext := inOrder_of_text L hcall hsound.settled rfl
    by_cases hv : w = v
    · -- whoever comes has nothing, and is sent the game first
      subst hv
      obtain ⟨hinbox, hsendq, hfresh⟩ := h.guest w hguest
      refine ⟨?_, fun m hm => ?_⟩
      · show Tidy (W.client w)
        rw [hfresh]
        exact fun id r hr => by cases hr
      · change m ∈ (W.inbox w ++ sent w) ++ (s'.workers w).sendq at hm
        rw [hpending _ hself, World.pending, hinbox, hsendq] at hm
        rcases List.mem_cons.mp hm with rfl | hm'
        · exact inOrder_snapshot hsound.settled
        · exact htext m hm'
    · obtain ⟨hin, hq⟩ := hothers w hv hw
      refine hold _ hin hq (fun m hm => (List.mem_append.mp hm).elim ?_ (htext m))
      exact inOrder_of_stretch h.manned.sound h.manned.sent (hspell ⟨w, hin⟩) m

/-- **In every world** the clients that are logged in are tidy, and what they
are to receive is in order. -/
theorem steadfast_of_reaches (hW : Reached (serving S fuel (fun d s => d.Once S s))
    (Server.State.opening S games) W) : ∀ w, W.server.LoggedIn w → Steadfast W w := by
  induction hW with
  | start =>
    exact fun w hw => absurd rfl ((Server.inv_start _).seats.player_ne_none hw)
  | serve hW hs ih =>
    obtain ⟨d, hd, honce, hl, rfl⟩ := hs
    have h := synced_indexed hW
    exact fun w hw => Steadfast.serve h ih (Server.serves_of_leaves rfl h.manned h.seats h.unmade
      (fun v hv => (h.guest v hv).2.1) hd honce (fun _ => Server.may_shipped d _) hl) hw
  | @receive W v m ms c hW hinbox hr ih =>
    intro w hw
    have h := ih w hw
    by_cases hv : w = v
    · subst hv
      have hmem : ∀ m', m' ∈ m :: ms ++ (W.server.workers w).sendq → InOrder m' := by
        have := h.inOrder
        rwa [World.pending, hinbox] at this
      refine ⟨?_, fun m' hm' => ?_⟩
      · show Tidy (Function.update W.client w c w)
        rw [Function.update_self]
        exact (h.tidy.receive (hmem m List.mem_cons_self) hr).tidy
      · change m' ∈ Function.update W.inbox w ms w ++ (W.server.workers w).sendq at hm'
        rw [Function.update_self] at hm'
        exact hmem m' (List.mem_cons_of_mem m hm')
    · refine ⟨?_, fun m' hm' => h.inOrder m' ?_⟩
      · show Tidy (Function.update W.client v c w)
        rw [Function.update_of_ne hv]
        exact h.tidy
      · change m' ∈ Function.update W.inbox v ms w ++ (W.server.workers w).sendq at hm'
        rwa [Function.update_of_ne hv] at hm'

/-- **The id of a mirror was given to something else**: a message that the
client is to receive brings that, or the client has it already. -/
def Overtaken (W : World) (w a id : ℕ) : Prop :=
  (∃ m ∈ W.pending w, Brings m id) ∨ ∃ b, b ≠ a ∧ (W.client w).objects.get id = some (.mirror b)

/-- **What the id of a mirror means to the server.** In every world that a run
reaches, however far behind a client that is logged in is: what the server has
under the id of a mirror is the object that is mirrored, of the class that the
mirror has – or the server has nothing there, or the id was given to something
else. -/
theorem meant_of_reaches (hW : Reached (serving S fuel (fun d s => d.Once S s))
    (Server.State.opening S games) W) {w : ℕ} (hw : W.server.LoggedIn w) {id a : ℕ}
    (hover : ¬Overtaken W w a id) {o : Obj}
    (ho : W.server.game.objects.get id = some o) :
    ((W.client w).heap a).object = o ∧ ((W.client w).heap a).kind = W.server.game.kindOf o := by
  obtain ⟨hpending, hother⟩ := not_or.mp hover
  obtain ⟨c, hreplays, hc⟩ := (synced_indexed hW).follows w hw
  obtain ⟨a', ha', -, hof⟩ := hc.mirror id o ho
  have hsteadfast := steadfast_of_reaches hW w hw
  have hreceived := (hsteadfast.tidy.replays hsteadfast.inOrder hreplays).2 id a' ha'
  -- no message brings it, so the client has had the mirror all along
  obtain ⟨hold, hobject, hkind⟩ := hreceived.resolve_left hpending
  have hsame : a' = a := by
    by_contra hne
    exact hother ⟨a', hne, hold⟩
  rw [hsame] at hobject hkind hof
  exact ⟨hobject.symm.trans hof.object, hkind.symm.trans hof.kind⟩

end World

end Client

end Felt
