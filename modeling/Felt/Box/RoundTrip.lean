import Felt.Box.Lockstep

/-!
# The round trip

What comes out of `box.unpack` when what `box.pack` wrote is put in: the value
that was packed, with every point of the sender's graph replaced by its image
at the receiver (`Exchange.roundTrip`). For a graph of plain tables that is
the same graph (`unpack_pack_plain`): the same leaves under the same keys, and
one table where there was one, however it was shared and whatever cycle it was
on.

Most of the work is done when the whole walk has been followed: the simulation
holds at its end, with no point open. What is left is to read off what it says.
Points that were rebuilt have images, all different; each was rebuilt from the
images of what was below it; and the image of the value that was packed is the
value that is answered. For plain graphs the images make up a graph of their own,
and it is the one that was sent.
-/

namespace Felt

namespace Box

variable {α ω τ : Type} [DecidableEq α] [DecidableEq ω]

/-! ## Before the first value -/

omit [DecidableEq α] in
/-- **The two walks start at the same place.** -/
theorem Sim.initial (X : Exchange α ω τ) {H : Set ℕ} {objs : Option (α → Option ℕ)}
    {store : Store ω τ}
    (hknown : ∀ a, X.known a ↔ ∃ id ∈ X.ids, objs.bind (fun objs => objs a) = some id)
    (hids : ∀ a id, objs.bind (fun objs => objs a) = some id → id ∈ X.ids)
    (hentries : ∀ id ∈ X.ids, X.receiver.entry store.world id = X.peer id)
    (hH : Encloses X.held store H) :
    Sim X [] [] H ⟨.initial, objs⟩ ⟨[], store, []⟩ where
  size := rfl
  range a k h := absurd h (by simp [Refs.initial])
  inj a b k h := absurd h (by simp [Refs.initial])
  marked a := by simp [Refs.initial]
  nodup := .nil
  known a ha := by
    obtain ⟨id, -, hid⟩ := (hknown a).mp ha
    show objs.bind (fun objs => objs a) ≠ none
    rw [hid]
    simp
  knownId a id hid := ⟨rfl, hids a id hid, Or.inl ((hknown a).mpr ⟨id, hids a id hid, hid⟩)⟩
  entries := hentries
  openCell a ha := absurd ha List.not_mem_nil
  openTable a ha := absurd ha List.not_mem_nil
  openCall a ha := absurd ha List.not_mem_nil
  tableInj a b i h := absurd h (by simp [slotOf, Refs.initial])
  bound a i h := absurd h (by simp [slotOf, Refs.initial])
  history := .nil
  frozen i c hc := absurd hc List.not_mem_nil
  encloses := hH
  nested pre a post h := absurd h (by simp)

/-! ## After the last -/

/-- The receiver's point for a point of the sender's. -/
def imageOf (peer : ℕ → Option ω) (st : PackState α) (ust : UnpackState ω τ) (a : α) :
    Point ω :=
  match slotOf st ust a with
  | some (.ref p) => p
  | _ =>
    match (st.knownId (.ref a)).bind peer with
    | some o => .object o
    | none => .table 0

/-- **What stands for a value**, when `φ` says so for its points. -/
def decode (φ : α → Point ω) : Value α → Value (Point ω)
  | .nil => .nil
  | .boolean b => .boolean b
  | .number n => .number n.reread
  | .string s => .string s
  | .ref a => .ref (φ a)
  | .foreign t => .foreign t

namespace Sim

variable {X : Exchange α ω τ} {done : List α} {H : Set ℕ} {st : PackState α}
  {ust : UnpackState ω τ}

omit [DecidableEq α] [DecidableEq ω] in
theorem imageOf_of_slotOf {peer : ℕ → Option ω} {a : α} {p : Point ω}
    (hs : slotOf st ust a = some (.ref p)) : imageOf peer st ust a = p := by
  rw [imageOf, hs]

omit [DecidableEq α] in
theorem imageOf_of_knownId (h : Sim X [] done H st ust) {a : α} {id : ℕ} {o : ω}
    (hid : st.knownId (.ref a) = some id) (ho : X.peer id = some o) :
    imageOf X.peer st ust a = .object o := by
  have hnone : slotOf st ust a = none := by
    rw [slotOf, (h.knownId a id hid).1]
    rfl
  simp only [imageOf, hnone, hid, Option.bind_some, ho]

omit [DecidableEq α] in
/-- What stands for a value at the end is its image. -/
theorem decode_of_decodes (h : Sim X [] done H st ust) {v : Value α} {w : Value (Point ω)}
    (hw : Decodes X.peer st ust v w) : w = decode (imageOf X.peer st ust) v := by
  cases hw with
  | nil => rfl
  | boolean b => rfl
  | number hm => exact congrArg Value.number (Number.reread_of_tonumber hm).symm
  | string s => rfl
  | slot hs => exact congrArg Value.ref (imageOf_of_slotOf hs).symm
  | known hid ho => exact congrArg Value.ref (h.imageOf_of_knownId hid ho).symm

omit [DecidableEq α] in
/-- A table is not the table of another point. -/
theorem eq_of_imageOf (h : Sim X [] done H st ust) {a b : α} (ha : a ∈ done) (hb : b ∈ done)
    {i : ℕ} (hai : imageOf X.peer st ust a = .table i)
    (hbi : imageOf X.peer st ust b = .table i) : a = b := by
  obtain ⟨p, hp⟩ := h.exists_slot_of_done ha
  obtain ⟨q, hq⟩ := h.exists_slot_of_done hb
  rw [imageOf_of_slotOf hp] at hai
  rw [imageOf_of_slotOf hq] at hbi
  subst hai hbi
  exact h.tableInj a b i hp hq

end Sim

/-- **How a point was rebuilt**, by what the decoder did for it: a table got
the images of its pairs, and a call object is what `__unpack` answered for the
image of its constructor. -/
inductive RebuiltAs (G : Graph α) (φ : α → Point ω) : α → Event ω → Prop where
  /-- A table. -/
  | table {a : α} {t : Table α} {i : ℕ} (hG : G a = .table t) (hφ : φ a = .table i) :
      RebuiltAs G φ a
        (.built i (fromPairs (t.pairs.map (fun p => (decode φ p.1, decode φ p.2)))))
  /-- A call object. -/
  | call {a : α} {type ctor : Value α} {o : ω} (hG : G a = .object (.call type ctor))
      (hφ : φ a = .object o) :
      RebuiltAs G φ a (.called (decode φ type) (decode φ ctor) (.ok (.ref (.object o))))

omit [DecidableEq α] in
theorem Sim.eq_map_decode {X : Exchange α ω τ} {done : List α} {H : Set ℕ}
    {st : PackState α} {ust : UnpackState ω τ} (h : Sim X [] done H st ust)
    {l : List (Value α × Value α)} {ps : List (Value (Point ω) × Value (Point ω))}
    (hps : List.Forall₂ (fun p q => Decodes X.peer st ust p.1 q.1
      ∧ Decodes X.peer st ust p.2 q.2) l ps) :
    ps = l.map (fun p => (decode (imageOf X.peer st ust) p.1,
      decode (imageOf X.peer st ust) p.2)) := by
  induction hps with
  | nil => rfl
  | cons hpq _ ih =>
    rw [List.map_cons, ← ih, ← h.decode_of_decodes hpq.1, ← h.decode_of_decodes hpq.2]

omit [DecidableEq α] in
theorem Sim.rebuiltAs {X : Exchange α ω τ} {done : List α} {H : Set ℕ} {st : PackState α}
    {ust : UnpackState ω τ} (h : Sim X [] done H st ust) {a : α} {event : Event ω}
    (hr : Rebuilt X.graph X.peer st ust a event) :
    RebuiltAs X.graph (imageOf X.peer st ust) a event := by
  cases hr with
  | @table t i ps hG hslot hps =>
    rw [h.eq_map_decode hps]
    exact .table hG (imageOf_of_slotOf hslot)
  | @call type ctor wt wc o hG hslot htype hctor =>
    rw [h.decode_of_decodes htype, h.decode_of_decodes hctor]
    exact .call hG (imageOf_of_slotOf hslot)

/-- What is rebuilt: a table or a call object that the receiver does not have. -/
def IsRebuilt (G : Graph α) (known : α → Prop) (a : α) : Prop :=
  ¬ known a ∧ ((∃ t, G a = .table t) ∨ ∃ type ctor, G a = .object (.call type ctor))

omit [DecidableEq α] in
/-- A value that was read, with nothing that was rebuilt holding the counter's
name, does not have it in it. -/
theorem Sim.not_hasName {X : Exchange α ω τ} {done : List α} {H : Set ℕ}
    {st : PackState α} {ust : UnpackState ω τ} (h : Sim X [] done H st ust)
    (hdone : ∀ a ∈ done, Value.string counterName ∉ (X.graph a).parts) {v : Value α}
    {w : Value (Point ω)} (hw : Decodes X.peer st ust v w) (hv : v ≠ .string counterName) :
    ¬ HasName X v := by
  intro hocc
  obtain ⟨u, hu⟩ : ∃ u, u = Value.string (α := α) counterName := ⟨_, rfl⟩
  rw [HasName, ← hu] at hocc
  induction hocc generalizing w with
  | self v => exact hv hu
  | @part c x u hc hx _ ih =>
    cases hw with
    | slot hs =>
      have hmem := ((h.marked c).mp (Sim.index_of_slotOf hs)).resolve_left List.not_mem_nil
      obtain ⟨event, -, hr⟩ := h.rebuilt hmem
      obtain ⟨w', hw'⟩ := hr.exists_decodes hx
      exact ih hw' (fun hn => hdone c hmem (hn ▸ hx)) hu
    | @known _ id o hid ho =>
      have hcell := (h.knownId c id hid).2.2.resolve_left hc
      rw [hcell] at hx
      obtain rfl := List.mem_singleton.mp hx
      exact ih (.known hid ho) (by simp) hu

/-- **A whole message, packed and unpacked**: it is packed, and either it is
unpacked, and both sides are done with what occurs in it, or the name of the
encoder's counter occurs in it, and unpacking raises. -/
theorem Exchange.roundTrip [Fintype α] (X : Exchange α ω τ) {H : Set ℕ}
    {st : PackState α} {store : Store ω τ} (hsim : Sim X [] [] H st ⟨[], store, []⟩)
    (hobjs : RecordsIn X.graph X.known st) {v : Value α} (hv : v.Sendable) :
    ∃ fuel b st', doPack X.graph fuel v st = .ok b st' ∧ st.Extends st' ∧
      ((¬ HasName X v ∧ ∃ fuel' w ust' done H',
          unpack .ideal X.receiver fuel' b store = .ok w ust' ∧
          Sim X [] done H' st' ust' ∧ Decodes X.peer st' ust' v w ∧
          (∀ a, a ∈ done ↔ Occurs X.graph X.known v (.ref a) ∧ IsRebuilt X.graph X.known a) ∧
          ((∀ a type ctor, X.graph a ≠ .object (.call type ctor)) → H' = H))
        ∨ HasName X v ∧ Fails X b ⟨[], store, []⟩) := by
  obtain ⟨fuel, b, st', hp⟩ := doPack_returns X.isMessage hsim.known hobjs hv
  refine ⟨fuel, b, st', hp, extends_of_doPack hp, ?_⟩
  rcases follows_doPack X fuel v st b st' hp [] [] H _ hsim
    (fun o ho => absurd ho List.not_mem_nil) with
    ⟨w, ust', new, H', ⟨N, hN⟩, hstep, hw, hne, hnew⟩ | hfail
  case inr => exact Or.inr hfail
  have hend : Sim X [] new H' st' ust' := by
    have := hstep.sim
    rwa [List.nil_append] at this
  refine Or.inl ⟨hend.not_hasName hstep.nameless hw hne, N, w, ust', new, H', hN N le_rfl, hend,
    hw, fun a => ⟨fun ha => ⟨hnew a ha, ?_⟩, fun ha => ?_⟩, hstep.plain⟩
  · refine ⟨hend.not_known ((hend.marked a).mpr (Or.inr ha)), ?_⟩
    obtain ⟨event, -, hr⟩ := hend.rebuilt ha
    cases hr with
    | table hG _ _ => exact Or.inl ⟨_, hG⟩
    | call hG _ _ _ => exact Or.inr ⟨_, _, hG⟩
  · obtain ⟨hocc, hnot, hcell⟩ := ha
    refine hend.mem_done_of_occurs hocc hw (fun o ho => absurd ho List.not_mem_nil) ?_
    refine Option.eq_none_iff_forall_ne_some.mpr (fun id hid => ?_)
    have hpack := (hend.knownId a id hid).2.2.resolve_left hnot
    rcases hcell with ⟨t, hG⟩ | ⟨type, ctor, hG⟩
    · exact absurd (hG.symm.trans hpack) (by simp)
    · exact absurd (hG.symm.trans hpack) (by simp)

/-! ## Plain graphs -/

/-- A leaf or a reference of a plain graph; its numbers are integers of fewer
than fifteen digits. -/
def IsPlain : Value α → Prop
  | .number n => ∃ i : ℤ, |i| < 10 ^ 14 ∧ n = Number.ofInt i
  | .foreign _ => False
  | _ => True

omit [DecidableEq α] in
theorem IsPlain.sendable {v : Value α} (h : IsPlain v) : v.Sendable := by
  cases v with
  | foreign t => exact h
  | _ => trivial

omit [DecidableEq α] [DecidableEq ω] in
/-- What stands for a plain value is that value, its points renamed. -/
theorem IsPlain.decode_eq {v : Value α} (h : IsPlain v) {φ : α → Point ω} :
    decode φ v = v.map φ := by
  cases v with
  | number n =>
    obtain ⟨i, hi, rfl⟩ := h
    exact congrArg Value.number
      (Number.reread_of_tonumber (Number.tonumber_tostring_ofInt hi))
  | _ => rfl

/-- The exchange of a plain graph, with a receiver that is asked for
nothing. -/
def Exchange.plain (G : Graph α)
    (hG : ∀ a, ∃ t, G a = .table t ∧ ∀ x ∈ t.elements, IsPlain x) (R : Receiver ω τ) :
    Exchange α ω τ where
  graph := G
  known _ := False
  isMessage := by
    refine ⟨fun a _ => Or.inl ((hG a).imp (fun t h => h.1)), fun a _ x hx => ?_,
      fun a type ctor _ h => ?_⟩
    · obtain ⟨t, ht, hplain⟩ := hG a
      rw [ht] at hx
      exact (hplain x hx).sendable
    · obtain ⟨t, ht, -⟩ := hG a
      exact absurd (ht.symm.trans h) (by simp)
  receiver := R
  ids := ∅
  recorded a id _ h := by
    obtain ⟨t, ht, -⟩ := hG a
    exact absurd (ht.symm.trans h) (by simp)
  peer _ := none
  peer_isSome id h := absurd h (Set.notMem_empty id)
  held _ := ∅
  serves a type ctor _ h := by
    obtain ⟨t, ht, -⟩ := hG a
    exact absurd (ht.symm.trans h) (by simp)

omit [DecidableEq α] [DecidableEq ω] in
theorem decode_eq_map {φ : α → Point ω} {f : α → ℕ} {x : Value α} (hx : IsPlain x)
    (hφ : ∀ a, x = .ref a → φ a = .table (f a)) :
    decode φ x = x.map (fun a => .table (f a)) := by
  rw [hx.decode_eq]
  cases x with
  | ref a => exact congrArg Value.ref (hφ a rfl)
  | _ => rfl

/-- **Plain graphs survive.** Whatever finite graph of tables is packed, in
whatever order each table is enumerated, if the string `"n"` is nowhere in it:
packing ends, unpacking the result raises nothing, and what was unpacked is
the graph that was packed. `φ` maps its tables to the decoded ones, no two to
the same, and the table of each is the table that was packed with every point
in it renamed. -/
theorem unpack_pack_plain [Fintype α] (G : Graph α)
    (hG : ∀ a, ∃ t, G a = .table t ∧ ∀ x ∈ t.elements, IsPlain x) {v : Value α}
    (hv : IsPlain v) (hname : ¬ Occurs G (fun _ => False) v (.string (bytes "n")))
    (R : Receiver ω τ) (store : Store ω τ) :
    ∃ fuel b st, pack G none fuel v = .ok b st ∧
      ∃ fuel' w ust, unpack .ideal R fuel' b store = .ok w ust ∧
        ∃ φ : α → ℕ, w = v.map (fun a => .table (φ a)) ∧
          (∀ a b, Occurs G (fun _ => False) v (.ref a) →
            Occurs G (fun _ => False) v (.ref b) → φ a = φ b → a = b) ∧
          ∀ a t, Occurs G (fun _ => False) v (.ref a) → G a = .table t →
            ust.store.tables[φ a]? = some (t.pairs.map (fun p =>
              (p.1.map (fun a => .table (φ a)), p.2.map (fun a => .table (φ a))))) := by
  have hsim : Sim (Exchange.plain G hG R) [] [] ∅ ⟨.initial, none⟩ ⟨[], store, []⟩ := by
    refine Sim.initial _ (fun a => ?_) (fun a id h => absurd h (by simp))
      (fun id h => absurd h (Set.notMem_empty id)) ⟨by simp, by simp, Set.empty_subset _⟩
    simp [Exchange.plain]
  have hcalls : ∀ a type ctor, G a ≠ .object (.call type ctor) := fun a type ctor h => by
    obtain ⟨t, ht, -⟩ := hG a
    exact absurd (ht.symm.trans h) (by simp)
  obtain ⟨fuel, b, st, hp, -, hor⟩ :=
    (Exchange.plain G hG R).roundTrip hsim (fun a id _ h => by
      obtain ⟨t, ht, -⟩ := hG a
      exact absurd (ht.symm.trans h) (by simp)) hv.sendable
  obtain ⟨-, fuel', w, ust, done, H, hu, hend, hw, hdone, hplain⟩ :=
    hor.resolve_right (fun h => hname h.1)
  obtain rfl := hplain hcalls
  set image := imageOf (Exchange.plain G hG R).peer st ust with himage
  have hmem : ∀ a, Occurs G (fun _ => False) v (.ref a) → a ∈ done := fun a ha =>
    (hdone a).mpr ⟨ha, not_false, Or.inl ((hG a).imp (fun t h => h.1))⟩
  have htable : ∀ a, Occurs G (fun _ => False) v (.ref a) → ∃ i, image a = .table i := by
    intro a ha
    obtain ⟨event, -, hr⟩ := hend.rebuilt (hmem a ha)
    cases hr with
    | table _ hslot _ => exact ⟨_, Sim.imageOf_of_slotOf hslot⟩
    | call h _ _ _ => exact absurd h (hcalls a _ _)
  refine ⟨fuel, b, st, hp, fuel', w, ust, hu, fun a => match image a with
    | .table i => i
    | .object _ => 0, ?_⟩
  set φ : α → ℕ := fun a => match image a with
    | .table i => i
    | .object _ => 0 with hφdef
  have hφ : ∀ a, Occurs G (fun _ => False) v (.ref a) → image a = .table (φ a) := by
    intro a ha
    obtain ⟨i, hi⟩ := htable a ha
    simp only [hφdef, hi]
  have hinj : ∀ a b, Occurs G (fun _ => False) v (.ref a) →
      Occurs G (fun _ => False) v (.ref b) → φ a = φ b → a = b := fun a b ha hb hab =>
    hend.eq_of_imageOf (hmem a ha) (hmem b hb) (hφ a ha) (hab ▸ hφ b hb)
  refine ⟨?_, hinj, fun a t ha hGa => ?_⟩
  · rw [hend.decode_of_decodes hw]
    exact decode_eq_map hv (fun a ha => hφ a (ha ▸ .self _))
  · obtain ⟨event, hevent, hr⟩ := hend.rebuilt (hmem a ha)
    cases hr with
    | call h _ _ _ => exact absurd h (hcalls a _ _)
    | @table t' i ps hGa' hslot hps =>
      obtain rfl : t' = t := by
        have := hGa'.symm.trans hGa
        simpa using this
      obtain rfl : i = φ a := by
        have := (Sim.imageOf_of_slotOf hslot).symm.trans (hφ a ha)
        simpa using this
      obtain ⟨t'', ht'', hplainT⟩ := hG a
      obtain rfl : t'' = t' := by
        have := ht''.symm.trans hGa
        simpa using this
      have hpart : ∀ x ∈ t''.elements, Occurs G (fun _ => False) v x := fun x hx =>
        ha.tail not_false (by rw [hGa]; exact hx)
      have hx : ∀ x ∈ t''.elements, decode image x = x.map (fun a => .table (φ a)) :=
        fun x hx => decode_eq_map (hplainT x hx) (fun c hc => hφ c (hc ▸ hpart x hx))
      have helem : ∀ p ∈ t''.pairs, p.1 ∈ t''.elements ∧ p.2 ∈ t''.elements := fun p hp =>
        ⟨List.mem_flatMap.mpr ⟨p, hp, by simp⟩, List.mem_flatMap.mpr ⟨p, hp, by simp⟩⟩
      have hps' : ps = t''.pairs.map (fun p =>
          (p.1.map (fun a => .table (φ a)), p.2.map (fun a => .table (φ a)))) := by
        rw [hend.eq_map_decode hps]
        exact List.map_congr_left (fun p hp => by
          rw [hx p.1 (helem p hp).1, hx p.2 (helem p hp).2])
      -- the keys are still different, and no value is `nil`
      have hself : fromPairs ps = ps := by
        refine fromPairs_eq_self ?_ (fun q hq => ?_)
        · rw [hps', List.map_map, show (Prod.fst ∘ fun p : Value α × Value α =>
            ((p.1.map (fun a => (Point.table (φ a) : Point ω))),
              (p.2.map (fun a => (Point.table (φ a) : Point ω)))))
            = (fun x : Value α => x.map (fun a => (Point.table (φ a) : Point ω))) ∘ Prod.fst
            from rfl, ← List.map_map]
          refine List.Nodup.map_on (fun x hxk y hyk hxy => ?_) t''.nodup
          obtain ⟨p, hp, rfl⟩ := List.mem_map.mp hxk
          obtain ⟨q, hq, rfl⟩ := List.mem_map.mp hyk
          refine Value.map_injOn (fun c d hc hd hcd => ?_) hxy
          exact hinj c d (hc ▸ hpart _ (helem p hp).1) (hd ▸ hpart _ (helem q hq).1)
            (by simpa using hcd)
        · obtain ⟨p, hp, hdec⟩ := exists_mem_of_forall₂ hps.flip hq
          exact hdec.2.ne_nil (t''.value_ne_nil p hp)
      rw [hself] at hevent
      rw [← hps']
      exact (hend.frozen _ _ hevent).resolve_left (Set.notMem_empty _)

/-- Two tables, each of which holds the other, one of them as a key too. -/
def twoTables : Graph (Fin 2)
  | 0 => .table
    { pairs := [(.string (bytes "self"), .ref 0), (.ref 1, .boolean true),
        (.number (.ofInt 1), .ref 1)]
      nodup := by decide +kernel
      isKey := by decide +kernel
      value_ne_nil := by decide +kernel }
  | 1 => .table
    { pairs := [(.boolean false, .ref 0)]
      nodup := by decide
      isKey := by decide
      value_ne_nil := by decide }

theorem unpack_pack_plain_twoTables :
    ∃ fuel b st, pack twoTables none fuel (.ref 0) = .ok b st ∧
      ∃ fuel' w ust, unpack .ideal (Receiver.plain Unit Unit) fuel' b ⟨[], ()⟩ = .ok w ust ∧
        ∃ φ : Fin 2 → ℕ, w = .ref (.table (φ 0)) ∧ φ 0 ≠ φ 1 ∧
          ust.store.tables[φ 1]? = some [(.boolean false, .ref (.table (φ 0)))] := by
  have hplain : ∀ a, ∃ t, twoTables a = .table t ∧ ∀ x ∈ t.elements, IsPlain x := by
    intro a
    match a with
    | 0 =>
      refine ⟨_, rfl, fun x hx => ?_⟩
      simp only [Table.elements, List.flatMap_cons, List.flatMap_nil, List.append_nil,
        List.cons_append, List.nil_append, List.mem_cons, List.not_mem_nil, or_false] at hx
      rcases hx with rfl | rfl | rfl | rfl | rfl | rfl
      · trivial
      · trivial
      · trivial
      · trivial
      · exact ⟨1, by norm_num, rfl⟩
      · trivial
    | 1 =>
      refine ⟨_, rfl, fun x hx => ?_⟩
      simp only [Table.elements, List.flatMap_cons, List.flatMap_nil, List.append_nil,
        List.mem_cons, List.not_mem_nil, or_false] at hx
      rcases hx with rfl | rfl <;> trivial
  have hname : ¬ Occurs twoTables (fun _ => False) (.ref 0) (.string (bytes "n")) := fun h =>
    h.preserves (P := fun v => v ≠ .string (bytes "n"))
      (fun a _ _ => (by decide +kernel : ∀ a, ∀ x ∈ (twoTables a).parts,
        x ≠ .string (bytes "n")) a) (by simp) rfl
  obtain ⟨fuel, b, st, hp, fuel', w, ust, hu, φ, hw, hinj, htab⟩ :=
    unpack_pack_plain twoTables hplain (v := .ref 0) trivial hname (Receiver.plain Unit Unit)
      ⟨[], ()⟩
  have h1 : Occurs twoTables (fun _ => False) (.ref 0) (.ref 1) :=
    .part not_false (x := .ref 1) (by simp [twoTables, Cell.parts, Table.elements]) (.self _)
  exact ⟨fuel, b, st, hp, fuel', w, ust, hu, φ, hw,
    fun h => absurd (hinj 0 1 (.self _) h1 h) (by decide), htab 1 _ h1 rfl⟩

end Box

end Felt
