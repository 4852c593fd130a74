import Felt.Box.Places

/-!
# Objects that are packed as they say

An object whose `__pack` answers `"raw"` gives the encoder the text to write, and
the encoder gives the object an index, as it does a table. The decoder knows of
no raw objects: what it gives an index is what it finds a tag `T` or `C` in front
of – none, one or many in a raw text. From the first text with another number
than one of them on, the two sides count apart, and a back-reference is resolved
to whatever the decoder has under its number.

`Single` is the condition that there is one: the text is a table or a call object
and none of its elements is. If all raw texts are so, every back-reference is
resolved to what was read where the object was packed
(`referencesSurvive_of_single`). If one is not, a message with it and as many
tables as it has entries is read wrong (`single_of_referencesSurvive`).

That the two sides count the same is an invariant of the walk (`Aligned`), and it
is kept by each step of `PackStep`: a table and a call object make one index on
one side and one entry on the other, everything else makes none on either, and a
raw text makes one index, and one entry if it is `Single`. From it follows that a
reference is resolved to the entry of the text that was written when the object
got its index – and what was read there is still there, by
`Felt.Box.Places`.

For the other direction a message is built around a raw text (`aliased`). It
stands in a table, behind it stand some empty tables, and behind those one table
under two keys, the second time as a reference. How many there are in between is
chosen by the number of entries the text has, so that the reference, if it is not
resolved to the last of the tables, is to one of those in front of it.

Messages in which references fail for other reasons are left out (`Regular`): an
object below its own constructor cannot be referred to, as it is not there yet,
and the name of the counter is a reference itself. Both have nothing to do with
raw texts.
-/

namespace Felt

namespace Box

variable {α ω τ : Type} [DecidableEq α] [DecidableEq ω]

/-! ## Texts with one entry -/

/-- **The elements the decoder cuts out of a text.** -/
inductive ElementOf : Bytes → Bytes → Prop where
  /-- All those of a table. -/
  | table {fuel : ℕ} {buf x : Bytes} {elements : List Bytes}
      (htoc : readtoc .ideal fuel buf () = .ok elements ()) (hx : x ∈ elements) :
      ElementOf (84 :: buf) x
  /-- The type and the argument of a call object. -/
  | call {fuel : ℕ} {buf x : Bytes} {elements : List Bytes}
      (htoc : readtoc .ideal fuel buf () = .ok elements ()) (hx : x ∈ elements.take 2) :
      ElementOf (67 :: buf) x

/-- **A text with one entry**: a table or a call object none of whose elements is
one. -/
def Single (b : Bytes) : Prop := Opens b ∧ ∀ x, ElementOf b x → ¬ Opens x

section Decoder

variable {R : Receiver ω τ} {m n : ℕ} {b : Bytes} {l : List Bytes} {w : Value (Point ω)}
  {ws : List (Value (Point ω))} {ust ust' : UnpackState ω τ}

omit [DecidableEq α] in
/-- A text that gets no entry changes nothing, and one that does makes `refs`
longer. -/
theorem eq_or_length_lt (h : doUnpack .ideal R n b ust = .ok w ust') :
    (¬ Opens b ∧ ust' = ust) ∨ (Opens b ∧ ust.refs.length < ust'.refs.length) := by
  by_cases hb : Opens b
  · obtain ⟨hown, -⟩ := own_of_doUnpack h hb
    exact Or.inr ⟨hb, (List.getElem?_eq_some_iff.mp hown).1⟩
  · rcases n with _ | n
    · cases h
    · exact Or.inl ⟨hb, eq_of_doUnpack_leaf (not_or.mp hb).1 (not_or.mp hb).2 h⟩

/-- A list of texts adds no entry exactly if none of them does. -/
theorem length_eq_iff (h : Run.mapList (doUnpack .ideal R n) l ust = .ok ws ust') :
    ust'.refs.length = ust.refs.length ↔ ∀ x ∈ l, ¬ Opens x := by
  induction l generalizing ust ws with
  | nil =>
    obtain ⟨-, rfl⟩ := Outcome.ok.inj h
    simp
  | cons b l ih =>
    obtain ⟨w, ust₁, ws', hb, hl, -⟩ := Run.mapList_cons_eq_ok.mp h
    rw [List.forall_mem_cons, ← ih hl]
    rcases eq_or_length_lt hb with ⟨hno, rfl⟩ | ⟨hopens, hlt⟩
    · exact ⟨fun h => ⟨hno, h⟩, fun h => h.2⟩
    · have hle := (prefix_of_mapList hl).length_le
      exact ⟨fun h => by omega, fun h => absurd hopens h.1⟩

omit [DecidableEq α] [DecidableEq ω] in
theorem readtoc_unique {buf : Bytes} {elements elements' : List Bytes}
    (h : readtoc .ideal m buf () = .ok elements ())
    (h' : readtoc .ideal n buf () = .ok elements' ()) : elements = elements' := by
  have hmore := Run.Approx.ok (Run.Approx.of_le (fun k => readtoc_approx (A := .ideal) k buf)
    (Nat.le_max_left m n)) h
  have hmore' := Run.Approx.ok (Run.Approx.of_le (fun k => readtoc_approx (A := .ideal) k buf)
    (Nat.le_max_right m n)) h'
  exact (Outcome.ok.inj (hmore.symm.trans hmore')).1

/-- **A text has one entry exactly if the decoder adds one** when it reads it. -/
theorem single_iff_of_doUnpack (h : doUnpack .ideal R n b ust = .ok w ust') :
    Single b ↔ ust'.refs.length = ust.refs.length + 1 := by
  rcases n with _ | n
  · cases h
  -- the tag makes one entry, so there is one if the elements make none
  have helements : ∀ {elements : List Bytes} {ust₀ ust₁ : UnpackState ω τ}
      {ws : List (Value (Point ω))}, Opens b →
      (∀ x, ElementOf b x ↔ x ∈ elements) → ust₀.refs.length = ust.refs.length + 1 →
      Run.mapList (doUnpack .ideal R n) elements ust₀ = .ok ws ust₁ →
      ust'.refs.length = ust₁.refs.length →
      (Single b ↔ ust'.refs.length = ust.refs.length + 1) := by
    intro elements ust₀ ust₁ ws hb hx h₀ hl h₁
    rw [h₁, ← h₀, length_eq_iff hl]
    exact ⟨fun h x hxe => h.2 x ((hx x).mpr hxe), fun h => ⟨hb, fun x hxe => h x ((hx x).mp hxe)⟩⟩
  cases unpackStep_of_doUnpack h with
  | leaf hT hC =>
    exact ⟨fun h => absurd h.1 (not_or.mpr ⟨hT, hC⟩), fun h => absurd h (by omega)⟩
  | table htoc hdata hrefs =>
    refine helements (Or.inl rfl) (fun x => ⟨fun hx => ?_, .table htoc⟩)
      (by simp [UnpackState.enterTable]) hdata (by rw [hrefs])
    cases hx with
    | table htoc' hx => rwa [readtoc_unique htoc htoc']
  | call htoc hdata hv hrefs =>
    refine helements (Or.inr rfl) (fun x => ⟨fun hx => ?_, .call htoc⟩)
      (by simp [UnpackState.enterCall]) hdata (by rw [hrefs, List.length_set])
    cases hx with
    | call htoc' hx => rwa [← readtoc_unique htoc htoc'] at hx

end Decoder

/-! ## Counting together -/

/-- **The two sides have counted the same**: the decoder has an entry for each
index. -/
def Aligned (st : PackState α) (ust : UnpackState ω τ) : Prop :=
  ust.refs.length + 1 = st.refs.n

omit [DecidableEq α] in
/-- What the encoder writes for what it does not number gets no entry. -/
theorem not_opens_of_scalarText {v : Value α} {b : Bytes} (h : scalarText v = some b) :
    ¬ Opens b := by
  cases v with
  | nil => obtain rfl := Option.some.inj h; decide
  | boolean c => obtain rfl := Option.some.inj h; cases c <;> decide
  | number n => obtain rfl := Option.some.inj h; rintro (h | h) <;> cases h
  | string s => obtain rfl := Option.some.inj h; rintro (h | h) <;> cases h
  | ref a => cases h
  | foreign t => cases h

section Aligned

variable {G : Graph α} {R : Receiver ω τ} {p q : Place α ω τ}

omit [DecidableEq α] in
/-- Both sides count together over a list if they do at each of its elements. -/
theorem Aligned.of_mapList {pk : Value α → Run (PackState α) BoxError Bytes} {n : ℕ}
    (h : ∀ v st b st' ust w ust', pk v st = .ok b st' →
      doUnpack .ideal R n b ust = .ok w ust' → Aligned st ust → Aligned st' ust')
    {l : List (Value α)} {data : List Bytes} {ws : List (Value (Point ω))}
    {st st' : PackState α} {ust ust' : UnpackState ω τ}
    (hl : Run.mapList pk l st = .ok data st')
    (hdata : Run.mapList (doUnpack .ideal R n) data ust = .ok ws ust')
    (hst : Aligned st ust) : Aligned st' ust' := by
  induction l generalizing st ust data ws with
  | nil =>
    obtain ⟨rfl, rfl⟩ := Outcome.ok.inj hl
    obtain ⟨-, rfl⟩ := Outcome.ok.inj hdata
    exact hst
  | cons v l ih =>
    obtain ⟨b, st₁, data', hv, hl', rfl⟩ := Run.mapList_cons_eq_ok.mp hl
    obtain ⟨w, ust₁, ws', hb, hdata', -⟩ := Run.mapList_cons_eq_ok.mp hdata
    exact ih hl' hdata' (h _ _ _ _ _ _ _ hv hb hst)

/-- **Both sides count together**, if each raw text has one entry. -/
theorem Aligned.of_doPack (hraw : ∀ a str, G a = .object (.raw str) → Single str) {m n : ℕ}
    {v : Value α} {b : Bytes} {w : Value (Point ω)} {st st' : PackState α}
    {ust ust' : UnpackState ω τ} (hp : doPack G m v st = .ok b st')
    (hu : doUnpack .ideal R n b ust = .ok w ust') (hst : Aligned st ust) : Aligned st' ust' := by
  induction m generalizing v st b st' n ust w ust' with
  | zero => cases hp
  | succ m ih =>
    have hleaf : ¬ Opens b → ust' = ust := fun hb =>
      ((eq_or_length_lt hu).resolve_right (fun h => hb h.1)).2
    have hall := fun (k : ℕ) v st b st' ust w ust' (h : doPack G m v st = .ok b st')
      (h' : doUnpack .ideal R k b ust = .ok w ust') => ih (n := k) h h'
    -- what the encoder does not number it writes as a leaf, which the decoder does not number
    -- either
    cases packStep_of_doPack hp with
    | ref hk => rwa [hleaf (by rintro (h | h) <;> cases h)]
    | obj hk hid => rwa [hleaf (by rintro (h | h) <;> cases h)]
    | scalar hk hb => rwa [hleaf (not_opens_of_scalarText hb)]
    | @table a t _ _ data hk hid hG hdata =>
      rcases n with _ | n
      · cases hu
      have hstep := unpackStep_of_doUnpack hu
      generalize hb : withToc (bytes "T") data = b at hstep
      cases hstep with
      | leaf hT hC => rw [← hb] at hT; exact absurd rfl hT
      | call _ _ _ _ => exact absurd (List.cons.inj hb).1 (by decide)
      | table hread hdata' hrefs =>
        obtain rfl := (List.cons.inj hb).2
        obtain rfl := eq_of_readtoc (Arith.exact_ideal _) (isToc_maketoc data) hread
        rw [Aligned, hrefs]
        refine Aligned.of_mapList (hall n) hdata hdata' ?_
        simpa [Aligned, UnpackState.enterTable] using hst
    | raw hk hid hG =>
      rw [Aligned, (single_iff_of_doUnpack hu).mp (hraw _ _ hG), PackState.mark_n, hst]
    | pack hk hid hG hw => exact ih hw hu hst
    | record hk hid hG hrec hw =>
      refine ih hw hu ?_
      rwa [Aligned, (PackState.record_eq hrec).1]
    | @call a type arg _ _ data hk hid hG hdata =>
      rcases n with _ | n
      · cases hu
      have hstep := unpackStep_of_doUnpack hu
      generalize hb : withToc (bytes "C") data = b at hstep
      cases hstep with
      | leaf hT hC => rw [← hb] at hC; exact absurd rfl hC
      | table _ _ _ => exact absurd (List.cons.inj hb).1 (by decide)
      | @call _ x y more _ _ _ _ _ hread hdata' hv hrefs =>
        obtain rfl := (List.cons.inj hb).2
        have heq := eq_of_readtoc (Arith.exact_ideal _) (isToc_maketoc data) hread
        -- the encoder has written two elements
        obtain rfl : more = [] := by
          have := Run.length_of_mapList hdata
          rw [← heq] at this
          simpa using this
        subst heq
        rw [Aligned, hrefs, List.length_set]
        refine Aligned.of_mapList (hall n) hdata hdata' ?_
        simpa [Aligned, UnpackState.enterCall] using hst

omit [DecidableEq ω] in
theorem aligned_enter (tag : UInt8) (a : α) (h : Aligned p.st p.ust) :
    Aligned (p.st.mark a) (p.ust.enter tag) := by
  unfold UnpackState.enter
  split
  · simpa [Aligned, UnpackState.enterTable] using h
  · simpa [Aligned, UnpackState.enterCall] using h

/-- **The two sides have counted the same wherever they come to.** -/
theorem Meets.aligned (hraw : ∀ a str, G a = .object (.raw str) → Single str)
    (h : Meets G R p q) (hp : Aligned p.st p.ust) : Aligned q.st q.ust := by
  induction h with
  | here p => exact hp
  | part ha htag hparts hpre hx htexts _ ih =>
    exact ih (Aligned.of_mapList (fun _ _ _ _ _ _ _ hp hu => Aligned.of_doPack hraw hp hu)
      hpre htexts (aligned_enter _ _ hp))
  | pack ha hG _ ih => exact ih hp
  | record ha hG hst _ ih =>
    refine ih ?_
    rwa [Aligned, (PackState.record_eq hst).1]

end Aligned

/-! ## Back-references -/

/-- **A place where a table or an object gets its index**: one that is not packed
as something else, and is packed for the first time. -/
def Place.Numbers (G : Graph α) (p : Place α ω τ) (a : α) : Prop :=
  p.Fresh a ∧ ∀ record w, G a ≠ .object (.pack record w)

/-- The objects the receiver is taken to have. -/
def knownIn (objs : Option (α → Option ℕ)) (a : α) : Prop :=
  (⟨.initial, objs⟩ : PackState α).knownId (.ref a) ≠ none

/-- The place where both sides start. -/
def start (objs : Option (α → Option ℕ)) (store : Store ω τ) (v : Value α) (text : Bytes) :
    Place α ω τ := ⟨v, ⟨.initial, objs⟩, text, ⟨[], store, []⟩⟩

/-- **Back-references survive** in a message: wherever both sides come to one, the
encoder means an object by it that it has packed before, and the decoder makes of
it what it makes of the text at the place where that was. -/
def ReferencesSurvive (G : Graph α) (objs : Option (α → Option ℕ)) (v : Value α)
    (R : Receiver ω τ) (store : Store ω τ) : Prop :=
  ∀ text st, (start objs store v text).Packs G st → ∀ p₂ k,
    Meets G R (start objs store v text) p₂ → p₂.st.refs.lookup p₂.value = some k →
      ∃ a, p₂.value = .ref a ∧ ∀ p₁, Meets G R (start objs store v text) p₁ → p₁.Numbers G a →
        ∃ w, p₂.ReadAs R w p₂.ust ∧ ∀ w' ust', p₁.ReadAs R w' ust' → w' = w

/-- **A message the codec is made for**: its raw texts are among `texts`, no object
is in what it is made from, and the name of the encoder's counter is not in it. -/
structure Regular (texts : Set Bytes) (G : Graph α) (objs : Option (α → Option ℕ))
    (v : Value α) : Prop where
  /-- The raw texts. -/
  raws : ∀ a str, G a = .object (.raw str) → str ∈ texts
  /-- No object is in what it is made from. -/
  nested : ∀ a type arg, G a = .object (.call type arg) → ∀ x ∈ [type, arg],
    ¬ Occurs G (knownIn objs) x (.ref a)
  /-- The counter's name is not in it. -/
  nameless : ¬ Occurs G (knownIn objs) v (.string counterName)

section Survive

variable {G : Graph α} {R : Receiver ω τ} {p p₁ p₂ : Place α ω τ} {a : α}

/-- What has an index is written as a reference to it. -/
theorem text_of_lookup {n k : ℕ} {v : Value α} {st st' : PackState α} {b : Bytes}
    (h : doPack G n v st = .ok b st') (hk : st.refs.lookup v = some k) :
    b = bytes "R" ++ decimal k ∧ st' = st := by
  rcases n with _ | n
  · cases h
  rw [doPack, Run.get_bind] at h
  simp only [hk] at h
  obtain ⟨rfl, rfl⟩ := Outcome.ok.inj h
  exact ⟨rfl, rfl⟩

omit [DecidableEq α] in
/-- A reference is read as the entry under its index. -/
theorem readAs_ref {k : ℕ} {w : Value (Point ω)} (htext : p.text = bytes "R" ++ decimal (k + 1))
    (hentry : p.ust.refs[k]? = some w) (hw : w.truthy = true) : p.ReadAs R w p.ust := by
  refine ⟨1, ?_⟩
  rw [htext]
  show unpackR .ideal (decimal (k + 1)) p.ust = _
  rw [unpackR, Run.get_bind, Arith.ideal_index_decimal, Option.bind_some,
    entryAt_natCast _ (Nat.succ_le_succ (Nat.zero_le k)), Nat.succ_sub_one, hentry,
    Run.bind_of_ok (Run.assertSome_some _ _ _), if_pos hw]
  rfl

omit [DecidableEq α] in
/-- Nothing else is made of it. -/
theorem entry_of_readAs {k : ℕ} {w : Value (Point ω)} {ust : UnpackState ω τ}
    (htext : p.text = bytes "R" ++ decimal (k + 1)) (h : p.ReadAs R w ust) :
    p.ust.refs[k]? = some w := by
  obtain ⟨m, hm⟩ := h
  rcases m with _ | m
  · cases hm
  rw [htext] at hm
  change unpackR .ideal (decimal (k + 1)) p.ust = _ at hm
  rw [unpackR, Run.get_bind, Arith.ideal_index_decimal, Option.bind_some,
    entryAt_natCast _ (Nat.succ_le_succ (Nat.zero_le k)), Nat.succ_sub_one] at hm
  obtain ⟨v, st, hv, hlast⟩ := Run.bind_eq_ok.mp hm
  split at hlast
  · obtain ⟨rfl, -⟩ := Outcome.ok.inj hlast
    exact (Run.assertSome_eq_ok.mp hv).1
  · cases hlast

omit [DecidableEq ω] in
/-- What gets its index at a place has the next one, and its text gets an entry. -/
theorem Place.Numbers.index {st : PackState α}
    (hraw : ∀ a str, G a = .object (.raw str) → Single str) (ha : p.Numbers G a)
    (hp : p.Packs G st) : st.refs.index a = some p.st.refs.n ∧ Opens p.text := by
  cases hp.fresh ha.1 with
  | parts htag htext hdata =>
    refine ⟨(extends_of_mapList_doPack hdata).index a _ (PackState.mark_index_self _ _), ?_⟩
    rw [htext]
    rcases eq_or_eq_of_tag htag with ⟨rfl, -⟩ | ⟨rfl, -⟩
    · exact Or.inl rfl
    · exact Or.inr rfl
  | raw hG hst =>
    rw [hst]
    exact ⟨PackState.mark_index_self _ _, (hraw _ _ hG).1⟩
  | pack hG _ => exact absurd hG (ha.2 _ _)
  | record hG _ _ => exact absurd hG (ha.2 _ _)

/-- **Behind a place both sides are done with**, its entry is what was read there. -/
theorem Finished.entry {k : ℕ}
    (h : Finished G R p₁ p₂) (hraw : ∀ a str, G a = .object (.raw str) → Single str)
    (ha : p₁.Numbers G a) (hk : p₂.st.refs.index a = some k) :
    k = p₁.st.refs.n ∧ ∃ w, p₂.ust.refs[p₁.ust.refs.length]? = some w ∧ w.truthy = true
      ∧ ∃ ust, p₁.ReadAs R w ust := by
  obtain ⟨st, hpacks, hext⟩ := h.packs
  obtain ⟨w, ust, hread, hlasts⟩ := h.read
  obtain ⟨hindex, hopens⟩ := ha.index hraw hpacks
  obtain ⟨n, hn⟩ := hread
  obtain ⟨hentry, hw⟩ := own_of_doUnpack hn hopens
  refine ⟨Option.some.inj (hk.symm.trans (hext.index a _ hindex)), w, hlasts _ _ hw hentry, hw,
    ust, n, hn⟩

/-- **Inside a table**, its entry is the table. -/
theorem entry_of_table {k : ℕ} {t : Table α} (h : Meets G R p₁ p₂) (ha : p₁.Fresh a)
    (hG : G a = .table t) (hk : p₂.st.refs.index a = some k) :
    k = p₁.st.refs.n ∧ p₂.ust.refs[p₁.ust.refs.length]?
      = some (.ref (.table p₁.ust.store.tables.length)) := by
  cases h with
  | here => exact absurd (ha.2.1.symm.trans hk) (by simp)
  | part ha' htag hparts hpre hx htexts hq =>
    obtain rfl := Value.ref.inj (ha.1.symm.trans ha'.1)
    rw [hG] at htag
    obtain rfl := Option.some.inj htag
    have hext := (extends_of_mapList_doPack hpre).trans hq.extends
    refine ⟨Option.some.inj (hk.symm.trans (hext.index a _ (PackState.mark_index_self _ _))), ?_⟩
    obtain ⟨more, hmore⟩ := (prefix_of_mapList htexts).trans hq.appends
    rw [← hmore]
    simp [UnpackState.enter, UnpackState.enterTable]
  | pack ha' hG' _ =>
    obtain rfl := Value.ref.inj (ha.1.symm.trans ha'.1)
    exact absurd (hG.symm.trans hG') (by simp)
  | record ha' hG' _ _ =>
    obtain rfl := Value.ref.inj (ha.1.symm.trans ha'.1)
    exact absurd (hG.symm.trans hG') (by simp)

/-- A table is read as the next table. -/
theorem Place.ReadAs.eq_table {st : PackState α} {t : Table α} {w : Value (Point ω)}
    {ust : UnpackState ω τ} (h : p.ReadAs R w ust) (hp : p.Packs G st) (ha : p.Fresh a)
    (hG : G a = .table t) : w = .ref (.table p.ust.store.tables.length) := by
  have htag : Cell.tag (G a) = some 84 := by
    rw [hG]
    rfl
  obtain ⟨n, data, htext, -⟩ := hp.parts ha htag
  obtain ⟨m, hm⟩ := h
  rcases m with _ | m
  · cases hm
  have hstep := unpackStep_of_doUnpack hm
  rw [htext] at hstep
  generalize hb : withToc [84] data = b at hstep
  cases hstep with
  | leaf hT hC => rw [← hb] at hT; exact absurd rfl hT
  | table _ _ _ => rfl
  | call _ _ _ _ => exact absurd (List.cons.inj hb).1 (by decide)

/-- **If each raw text has one entry, every back-reference is resolved** to what
was read where the object was packed. -/
theorem referencesSurvive_of_single {texts : Set Bytes} {objs : Option (α → Option ℕ)}
    {v : Value α} {store : Store ω τ} (hsingle : ∀ str ∈ texts, Single str)
    (hreg : Regular texts G objs v) : ReferencesSurvive G objs v R store := by
  intro text st hpacks p₂ k h₂ hk
  have hraw : ∀ a str, G a = .object (.raw str) → Single str := fun a str hG =>
    hsingle str (hreg.raws a str hG)
  obtain ⟨_, ⟨n, hn⟩, -⟩ := h₂.packs hpacks
  obtain ⟨htext, -⟩ := text_of_lookup hn hk
  obtain ⟨a, ha⟩ : ∃ a, p₂.value = .ref a := by
    rcases hv : p₂.value with _ | _ | _ | s | a | _
    case ref => exact ⟨a, rfl⟩
    case string =>
      rw [hv] at hk
      have hs : s = counterName := by
        by_contra hne
        rw [Refs.lookup, if_neg hne] at hk
        cases hk
      exact absurd (hs ▸ hv ▸ h₂.visits.occurs (fun _ hc => hc)) hreg.nameless
    all_goals rw [hv] at hk; cases hk
  rw [ha] at hk
  refine ⟨a, ha, fun p₁ h₁ hnum => ?_⟩
  have haligned : Aligned p₁.st p₁.ust := h₁.aligned hraw rfl
  -- the entry of the object is where its index says
  suffices hentry : k = p₁.st.refs.n ∧ ∃ w, p₂.ust.refs[p₁.ust.refs.length]? = some w
      ∧ w.truthy = true ∧ ∀ w' ust', p₁.ReadAs R w' ust' → w' = w by
    obtain ⟨rfl, w, hw, htruthy, hread⟩ := hentry
    rw [← haligned] at htext
    exact ⟨w, readAs_ref htext hw htruthy, hread⟩
  rcases h₁.ordered h₂ hnum.1 hk with hbelow | hfinished
  · obtain ⟨st', hp₁, -⟩ := h₁.packs hpacks
    cases hG : G a with
    | table t =>
      obtain ⟨hk', hw⟩ := entry_of_table hbelow hnum.1 hG hk
      exact ⟨hk', _, hw, rfl, fun w' ust' hr => hr.eq_table hp₁ hnum.1 hG⟩
    | object answer =>
      cases hbelow with
      | here => exact absurd (hnum.1.2.1.symm.trans hk) (by simp)
      | pack ha' hG' _ =>
        obtain rfl := Value.ref.inj (hnum.1.1.symm.trans ha'.1)
        exact absurd hG' (hnum.2 _ _)
      | record ha' hG' _ _ =>
        obtain rfl := Value.ref.inj (hnum.1.1.symm.trans ha'.1)
        exact absurd hG' (hnum.2 _ _)
      | part ha' htag hparts hpre hx htexts hq =>
        obtain rfl := Value.ref.inj (hnum.1.1.symm.trans ha'.1)
        rcases eq_or_eq_of_tag htag with ⟨-, t, hG'⟩ | ⟨-, type, arg, hG'⟩
        · exact absurd (hG.symm.trans hG') (by simp)
        · rw [hG'] at hparts
          have hext := h₁.extends.trans ((PackState.extends_mark hnum.1.2.1).trans
            (extends_of_mapList_doPack hpre))
          refine absurd (ha ▸ hq.visits.occurs (fun _ hc => hext.knownId_ne_none hc))
            (hreg.nested a type arg hG' _ ?_)
          rw [show [type, arg] = _ from hparts]
          simp
  · obtain ⟨hk', w, hw, htruthy, ust, hread⟩ := hfinished.entry hraw hnum hk
    exact ⟨hk', w, hw, htruthy, fun w' ust' hr => (hr.unique hread).1⟩

end Survive

/-! ## A message that is read wrong -/

/-- The empty table. -/
def emptyTable {β : Type} : Table β := ⟨[], List.nodup_nil, by simp, by simp⟩

/-- As many empty tables as there are numbers in a list, as the keys of a table. -/
def fillers (js : List ℕ) : List (Value ℕ × Value ℕ) :=
  js.map (fun j => (.ref (j + 3), .boolean true))

/-- An object that is packed as `str`, as many empty tables as `l` says, and one
more empty table in two places. -/
def aliased (str : Bytes) (l : ℕ) : Graph ℕ
  | 0 => .table
    { pairs := (.boolean true, .ref 1) :: (fillers (List.range l)
        ++ [(.string (bytes "a"), .ref 2), (.string (bytes "b"), .ref 2)])
      nodup := by
        have hkeys : ((fillers (List.range l)).map Prod.fst).Nodup := by
          rw [fillers, List.map_map]
          exact List.nodup_range.map (fun i j hij => by simpa using hij)
        have hne : bytes "a" ≠ bytes "b" := by decide
        simp only [List.map_cons, List.map_append, List.map_nil, List.nodup_cons]
        refine ⟨by simp [fillers], List.Nodup.append hkeys (by simp [hne]) ?_⟩
        simp [List.Disjoint, fillers]
      isKey := by
        intro p hp
        simp only [fillers, List.mem_cons, List.mem_append, List.mem_map, List.not_mem_nil,
          or_false] at hp
        rcases hp with rfl | ⟨j, -, rfl⟩ | rfl | rfl <;> trivial
      value_ne_nil := by
        intro p hp
        simp only [fillers, List.mem_cons, List.mem_append, List.mem_map, List.not_mem_nil,
          or_false] at hp
        rcases hp with rfl | ⟨j, -, rfl⟩ | rfl | rfl <;> nofun }
  | 1 => .object (.raw str)
  | _ => .table emptyTable

section Aliased

variable {str : Bytes} {l : ℕ} {R : Receiver ω τ}

theorem doPack_emptyTable {a : ℕ} {st : PackState ℕ} (ha : 2 ≤ a) (hk : st.refs.index a = none)
    (hobjs : st.objs = none) (n : ℕ) :
    doPack (aliased str l) (n + 1) (.ref a) st = .ok (bytes "T0:") (st.mark a) := by
  obtain ⟨a, rfl⟩ : ∃ c, a = c + 2 := ⟨a - 2, by omega⟩
  have hid : st.knownId (.ref (a + 2)) = none := by
    rw [PackState.knownId, hobjs]
    rfl
  rw [doPack, Run.get_bind]
  simp only [Refs.lookup, hk, hid]
  rfl

omit [DecidableEq α] in
theorem doUnpack_emptyTable (n : ℕ) (ust : UnpackState ω τ) :
    ∃ ust', doUnpack .ideal R (n + 1) (bytes "T0:") ust
        = .ok (.ref (.table ust.store.tables.length)) ust'
      ∧ ust'.refs = ust.refs ++ [.ref (.table ust.store.tables.length)]
      ∧ ust'.store.tables.length = ust.store.tables.length + 1 := by
  have hread : (readtoc .ideal n [48, 58] : Run (UnpackState ω τ) BoxError (List Bytes))
      ust.enterTable = .ok [] ust.enterTable := readtoc_maketoc [] (Nat.zero_le n) _
  refine ⟨{ ust.enterTable with history := ust.history ++ [.built ust.store.tables.length
    (ust.enterTable.store.tables.getD ust.store.tables.length [])] }, ?_, rfl,
    by simp [UnpackState.enterTable]⟩
  show doUnpack .ideal R (n + 1) [84, 48, 58] ust = _
  rw [doUnpack_table, Run.bind_of_ok hread]
  simp only [Run.mapList_nil, Run.bind_apply, List.take_nil, setEntries, Run.pure_apply, note,
    Run.modify_apply]
  rfl

/-- The empty tables get the next indices. -/
theorem mapList_doPack_fillers (str : Bytes) (l n : ℕ) {js : List ℕ} {st : PackState ℕ}
    (hnodup : js.Nodup) (hk : ∀ j ∈ js, st.refs.index (j + 3) = none) (hobjs : st.objs = none) :
    ∃ st', Run.mapList (doPack (aliased str l) (n + 1))
        ((fillers js).flatMap (fun p => [p.1, p.2])) st
          = .ok (js.flatMap (fun _ => [bytes "T0:", bytes "t"])) st'
      ∧ st'.refs.n = st.refs.n + js.length ∧ st'.refs.index 2 = st.refs.index 2
      ∧ st'.objs = none := by
  induction js generalizing st with
  | nil => exact ⟨st, rfl, rfl, rfl, hobjs⟩
  | cons j js ih =>
    obtain ⟨hj, hnodup⟩ := List.nodup_cons.mp hnodup
    obtain ⟨hkj, hk⟩ := List.forall_mem_cons.mp hk
    have hk' : ∀ i ∈ js, (st.mark (j + 3)).refs.index (i + 3) = none := fun i hi => by
      have hne : i ≠ j := fun h => hj (h ▸ hi)
      rw [PackState.mark_index_of_ne st (by omega), hk i hi]
    obtain ⟨st', hrun, hn, hindex, hobjs'⟩ := ih hnodup hk' hobjs
    refine ⟨st', ?_, by rw [hn, PackState.mark_n, List.length_cons]; omega, ?_, hobjs'⟩
    · refine Run.mapList_cons_eq_ok.mpr ⟨_, _, _, doPack_emptyTable (by omega) hkj hobjs n,
        Run.mapList_cons_eq_ok.mpr ⟨_, st.mark (j + 3), _, ?_, hrun, rfl⟩, rfl⟩
      rfl
    · rw [hindex, PackState.mark_index_of_ne st (by omega)]

omit [DecidableEq α] in
/-- The empty tables are the next ones the decoder makes. -/
theorem mapList_doUnpack_fillers (n : ℕ) (js : List ℕ) (ust : UnpackState ω τ) :
    ∃ ws ust', Run.mapList (doUnpack .ideal R (n + 1))
        (js.flatMap (fun _ => [bytes "T0:", bytes "t"])) ust = .ok ws ust'
      ∧ ust'.refs.length = ust.refs.length + js.length
      ∧ ust'.store.tables.length = ust.store.tables.length + js.length
      ∧ (0 < js.length →
        ust.refs ++ [.ref (.table ust.store.tables.length)] <+: ust'.refs) := by
  induction js generalizing ust with
  | nil => exact ⟨_, ust, rfl, rfl, rfl, fun h => absurd h (Nat.lt_irrefl 0)⟩
  | cons j js ih =>
    obtain ⟨ust₁, htable, hrefs, htables⟩ := doUnpack_emptyTable (R := R) n ust
    obtain ⟨ws, ust', hrun, hlength, htables', -⟩ := ih ust₁
    refine ⟨.ref (.table ust.store.tables.length) :: .boolean true :: ws, ust', ?_, ?_, ?_,
      fun _ => ?_⟩
    · exact Run.mapList_cons_eq_ok.mpr ⟨_, _, _, htable,
        Run.mapList_cons_eq_ok.mpr ⟨_, ust₁, _, rfl, hrun, rfl⟩, rfl⟩
    · rw [hlength, hrefs, List.length_append, List.length_singleton, List.length_cons]
      omega
    · rw [htables', htables, List.length_cons]
      omega
    · rw [← hrefs]
      exact prefix_of_mapList hrun

/-- What is in front of the first of the two places of the last table. -/
def inFront (l : ℕ) : List (Value ℕ) :=
  [.boolean true, .ref 1] ++ ((fillers (List.range l)).flatMap (fun p => [p.1, p.2])
    ++ [.string (bytes "a")])

/-- Its texts. -/
def inFrontTexts (str : Bytes) (l : ℕ) : List Bytes :=
  [bytes "t", str] ++ ((List.range l).flatMap (fun _ => [bytes "T0:", bytes "t"])
    ++ [bytes "S" ++ bytes "a"])

theorem parts_aliased (str : Bytes) (l : ℕ) :
    (aliased str l 0).parts = inFront l ++ [.ref 2, .string (bytes "b"), .ref 2] := by
  simp [aliased, Cell.parts, Table.elements, inFront]

/-- The encoder numbers the last table behind all the others. -/
theorem mapList_doPack_inFront (str : Bytes) (l n : ℕ) :
    ∃ st, Run.mapList (doPack (aliased str l) (n + 1)) (inFront l)
        ((⟨.initial, none⟩ : PackState ℕ).mark 0) = .ok (inFrontTexts str l) st
      ∧ st.refs.n = l + 3 ∧ st.refs.index 2 = none ∧ st.objs = none := by
  have hk : ∀ j ∈ List.range l,
      (((⟨.initial, none⟩ : PackState ℕ).mark 0).mark 1).refs.index (j + 3) = none :=
    fun j _ => rfl
  obtain ⟨st, hrun, hn, hindex, hobjs⟩ :=
    mapList_doPack_fillers str l n List.nodup_range hk rfl
  refine ⟨st, ?_, by rw [hn, List.length_range]; exact Nat.add_comm _ _, hindex, hobjs⟩
  refine Run.mapList_append_eq_ok.mpr ⟨[bytes "t", str], _,
    ((⟨.initial, none⟩ : PackState ℕ).mark 0).mark 1, rfl, ?_, rfl⟩
  refine Run.mapList_append_eq_ok.mpr ⟨_, _, st, hrun, ?_, rfl⟩
  exact Run.mapList_cons_eq_ok.mpr ⟨_, _, _, doPack_string _ (by decide) st n, rfl, rfl⟩

omit [DecidableEq α] in
/-- The decoder makes it behind all the others too, but behind what it has made of
the raw text. -/
theorem mapList_doUnpack_inFront {n : ℕ} {w : Value (Point ω)} {ust ust₁ : UnpackState ω τ}
    (hstr : doUnpack .ideal R n str ust = .ok w ust₁) (l : ℕ) :
    ∃ ws ust', Run.mapList (doUnpack .ideal R (n + 1)) (inFrontTexts str l) ust = .ok ws ust'
      ∧ ust'.refs.length = ust₁.refs.length + l
      ∧ ust'.store.tables.length = ust₁.store.tables.length + l
      ∧ (0 < l → ust₁.refs ++ [.ref (.table ust₁.store.tables.length)] <+: ust'.refs) := by
  obtain ⟨ws, ust', hrun, hlength, htables, hfirst⟩ :=
    mapList_doUnpack_fillers (R := R) n (List.range l) ust₁
  rw [List.length_range] at hlength htables hfirst
  have hstr' : doUnpack .ideal R (n + 1) str ust = .ok w ust₁ := by
    rw [doUnpack_of_le (Nat.le_succ n) (by rw [hstr]; nofun), hstr]
  refine ⟨[.boolean true, w] ++ (ws ++ [.string (bytes "a")]), ust', ?_, hlength, htables,
    hfirst⟩
  refine Run.mapList_append_eq_ok.mpr ⟨[.boolean true, w], _, ust₁, ?_, ?_, rfl⟩
  · exact Run.mapList_cons_eq_ok.mpr ⟨.boolean true, ust, [w], rfl,
      Run.mapList_cons_eq_ok.mpr ⟨w, ust₁, [], hstr', rfl, rfl⟩, rfl⟩
  · exact Run.mapList_append_eq_ok.mpr ⟨_, [.string (bytes "a")], ust', hrun, rfl, rfl⟩

omit [DecidableEq ω] in
/-- The message as a whole is packed. -/
theorem packs_aliased {n : ℕ} {st st' : PackState ℕ} {texts : List Bytes} {b : Bytes}
    (store : Store ω τ)
    (hpre : Run.mapList (doPack (aliased str l) (n + 1))
      (inFront l ++ [.ref 2, .string (bytes "b")]) ((⟨.initial, none⟩ : PackState ℕ).mark 0)
        = .ok texts st)
    (hlast : doPack (aliased str l) (n + 1) (.ref 2) st = .ok b st') :
    (start none store (.ref 0) (withToc (bytes "T") (texts ++ [b]))).Packs (aliased str l) st' := by
  have hall : Run.mapList (doPack (aliased str l) (n + 1)) (aliased str l 0).parts
      ((⟨.initial, none⟩ : PackState ℕ).mark 0) = .ok (texts ++ [b]) st' := by
    rw [parts_aliased, show inFront l ++ [.ref 2, .string (bytes "b"), .ref 2]
      = (inFront l ++ [.ref 2, .string (bytes "b")]) ++ [.ref 2] by simp]
    exact Run.mapList_append_eq_ok.mpr ⟨_, _, _, hpre,
      Run.mapList_cons_eq_ok.mpr ⟨_, _, _, hlast, rfl, rfl⟩, rfl⟩
  refine ⟨n + 2, ?_⟩
  show packTable (doPack (aliased str l) (n + 1)) 0 _ _ = _
  rw [packTable, Run.modify_bind]
  exact Run.bind_of_ok hall

/-- **If back-references survive around a raw text, it has one entry.** -/
theorem single_of_referencesSurvive {store : Store ω τ}
    (hread : ∃ n w ust, doUnpack .ideal R n str
      (⟨[], store, []⟩ : UnpackState ω τ).enterTable = .ok w ust)
    (h : ∀ l, ReferencesSurvive (aliased str l) none (.ref 0) R store) : Single str := by
  obtain ⟨n, w, ust₁, hstr⟩ := hread
  rw [single_iff_of_doUnpack hstr]
  have hle := (prefix_of_doUnpack hstr).length_le
  -- as many tables behind the raw text as it has entries but one
  obtain ⟨l, hl⟩ : ∃ l, l = ust₁.refs.length - 2 := ⟨_, rfl⟩
  obtain ⟨st, hpre, hn, hindex, hobjs⟩ := mapList_doPack_inFront str l n
  obtain ⟨ws, ust, hread, hlength, htables, hfirst⟩ := mapList_doUnpack_inFront hstr l
  obtain ⟨ust', htable, hrefs, -⟩ := doUnpack_emptyTable (R := R) n ust
  have htwo : doPack (aliased str l) (n + 1) (.ref 2) st = .ok (bytes "T0:") (st.mark 2) :=
    doPack_emptyTable (le_refl 2) hindex hobjs n
  have hlast : doPack (aliased str l) (n + 1) (.ref 2) (st.mark 2)
      = .ok (bytes "R" ++ decimal (l + 3)) (st.mark 2) := by
    rw [doPack, Run.get_bind, ← hn]
    simp only [Refs.lookup, PackState.mark_index_self]
    rfl
  have hpre₂ : Run.mapList (doPack (aliased str l) (n + 1))
      (inFront l ++ [.ref 2, .string (bytes "b")]) ((⟨.initial, none⟩ : PackState ℕ).mark 0)
        = .ok (inFrontTexts str l ++ [bytes "T0:", bytes "S" ++ bytes "b"]) (st.mark 2) :=
    Run.mapList_append_eq_ok.mpr ⟨_, _, _, hpre, Run.mapList_cons_eq_ok.mpr ⟨_, _, _, htwo,
      Run.mapList_cons_eq_ok.mpr ⟨_, _, _, doPack_string _ (by decide) _ n, rfl, rfl⟩, rfl⟩, rfl⟩
  have hread₂ : Run.mapList (doUnpack .ideal R (n + 1))
      (inFrontTexts str l ++ [bytes "T0:", bytes "S" ++ bytes "b"])
        (⟨[], store, []⟩ : UnpackState ω τ).enterTable
          = .ok (ws ++ [.ref (.table ust.store.tables.length), .string (bytes "b")]) ust' :=
    Run.mapList_append_eq_ok.mpr ⟨_, _, _, hread, Run.mapList_cons_eq_ok.mpr ⟨_, _, _, htable,
      Run.mapList_cons_eq_ok.mpr ⟨_, ust', _, rfl, rfl, rfl⟩, rfl⟩, rfl⟩
  obtain ⟨text, hpacks⟩ : ∃ text, (start none store (.ref 0) text).Packs (aliased str l)
      (st.mark 2) := ⟨_, packs_aliased store hpre₂ hlast⟩
  have hfresh : (start none store (.ref 0) text).Fresh 0 := ⟨rfl, rfl, rfl⟩
  have h₁ : Meets (aliased str l) R (start none store (.ref 0) text)
      ⟨.ref 2, st, bytes "T0:", ust⟩ :=
    .part hfresh rfl (parts_aliased str l) hpre htwo hread (.here _)
  have hparts : (aliased str l 0).parts
      = (inFront l ++ [.ref 2, .string (bytes "b")]) ++ .ref 2 :: [] := by
    rw [parts_aliased]
    simp
  have h₂ : Meets (aliased str l) R (start none store (.ref 0) text)
      ⟨.ref 2, st.mark 2, bytes "R" ++ decimal (l + 3), ust'⟩ :=
    .part hfresh rfl hparts hpre₂ hlast hread₂ (.here _)
  obtain ⟨a, ha, hsame⟩ := h l text _ hpacks _ (l + 3) h₂
    (by rw [← hn]; exact PackState.mark_index_self st 2)
  obtain rfl := Value.ref.inj ha
  have hid : st.knownId (.ref 2) = none := by
    rw [PackState.knownId, hobjs]
    rfl
  obtain ⟨w₂, hw₂, heq⟩ := hsame _ h₁ ⟨⟨rfl, hindex, hid⟩, fun record u => by simp [aliased]⟩
  obtain rfl := heq _ _ ⟨n + 1, htable⟩
  -- the reference is resolved to the entry under its number
  have hentry : ust'.refs[l + 2]? = some (.ref (.table ust.store.tables.length)) :=
    entry_of_readAs rfl hw₂
  have hlt := (List.getElem?_eq_some_iff.mp hentry).1
  rw [hrefs, List.length_append, List.length_singleton, hlength] at hlt
  have hone : 1 ≤ ust₁.refs.length := hle
  have htwo : 2 ≤ ust₁.refs.length := by omega
  by_contra hne
  have hpos : 0 < l := by
    have : ust₁.refs.length ≠ 2 := hne
    omega
  -- which is the first of the tables, and not the last
  obtain ⟨more, hmore⟩ := hfirst hpos
  have hfirst' : ust'.refs[l + 2]? = some (.ref (.table ust₁.store.tables.length)) := by
    rw [hrefs, ← hmore, show l + 2 = ust₁.refs.length by omega]
    simp
  have := hentry.symm.trans hfirst'
  simp only [Option.some.injEq, Value.ref.injEq, Point.table.injEq] at this
  omega

theorem regular_aliased {texts : Set Bytes} (hstr : str ∈ texts) (l : ℕ) :
    Regular texts (aliased str l) none (.ref 0) where
  raws a str' hG := by
    match a with
    | 0 => cases hG
    | 1 =>
      obtain rfl : str = str' := by simpa [aliased] using hG
      exact hstr
    | a + 2 => cases hG
  nested a type arg hG := by
    match a with
    | 0 => cases hG
    | 1 => cases hG
    | a + 2 => cases hG
  nameless h := by
    refine h.preserves (P := fun v => v ≠ .string counterName) (fun a _ _ x hx => ?_) (by simp) rfl
    match a with
    | 0 =>
      have ha : bytes "a" ≠ counterName := by decide
      have hb : bytes "b" ≠ counterName := by decide
      rw [parts_aliased] at hx
      simp only [inFront, fillers, List.mem_append, List.mem_cons, List.mem_flatMap, List.mem_map,
        List.not_mem_nil, or_false] at hx
      rcases hx with ((rfl | rfl) | ⟨_, ⟨j, -, rfl⟩, rfl | rfl⟩ | rfl) | rfl | rfl | rfl <;>
        simp [ha, hb]
    | 1 => cases hx
    | a + 2 => cases hx

end Aliased

/-- **Back-references survive exactly if** each raw text is a table or a call object
none of whose elements is one: whatever messages have these raw texts in them, in
whatever places, each back-reference is then resolved to what was read where the
object was packed – and not otherwise, if the texts can be read in a table at
all. -/
theorem referencesSurvive_iff (R : Receiver ω τ) (store : Store ω τ) (texts : Set Bytes)
    (hread : ∀ str ∈ texts, ∀ ust : UnpackState ω τ, (∀ v ∈ ust.refs, v.truthy = true) →
      ∃ n w ust', doUnpack .ideal R n str ust = .ok w ust') :
    (∀ (β : Type) [DecidableEq β] (G : Graph β) (objs : Option (β → Option ℕ)) (v : Value β),
        Regular texts G objs v → ReferencesSurvive G objs v R store)
      ↔ ∀ str ∈ texts, Single str := by
  refine ⟨fun h str hstr => ?_, fun h β _ G objs v hreg => referencesSurvive_of_single h hreg⟩
  refine single_of_referencesSurvive ?_ (fun l => h ℕ _ _ _ (regular_aliased hstr l))
  refine hread str hstr _ (fun v hv => ?_)
  obtain rfl := List.mem_singleton.mp hv
  rfl

/-- A raw object that is an empty table: `T0:`. -/
theorem referencesSurvive_iff_emptyTable :
    (∀ (β : Type) [DecidableEq β] (G : Graph β) (objs : Option (β → Option ℕ)) (v : Value β),
        Regular {bytes "T0:"} G objs v →
          ReferencesSurvive G objs v (Receiver.plain Empty Unit) ⟨[], ()⟩)
      ↔ ∀ str ∈ ({bytes "T0:"} : Set Bytes), Single str := by
  refine referencesSurvive_iff _ _ _ (fun str hstr ust _ => ?_)
  rw [hstr]
  obtain ⟨ust', h, -⟩ := doUnpack_emptyTable (R := Receiver.plain Empty Unit) 0 ust
  exact ⟨1, _, ust', h⟩

/-- **A raw object that is a scalar breaks them**: the string `x`, as `Sx`. -/
theorem not_referencesSurvive :
    ¬ ∀ (texts : Set Bytes) (R : Receiver Empty Unit) (store : Store Empty Unit),
      (∀ str ∈ texts, WellFormed str ∧ ∀ ust : UnpackState Empty Unit,
        ∃ n w ust', doUnpack .ideal R n str ust = .ok w ust') →
      ∀ (β : Type) [DecidableEq β] (G : Graph β) (objs : Option (β → Option ℕ)) (v : Value β),
        Regular texts G objs v → ReferencesSurvive G objs v R store := by
  intro h
  have hread : ∀ str ∈ ({[83, 120]} : Set Bytes), WellFormed str ∧
      ∀ ust : UnpackState Empty Unit, ∃ n w ust',
        doUnpack .ideal (Receiver.plain Empty Unit) n str ust = .ok w ust' := fun str hstr => by
    rw [hstr]
    exact ⟨.string _, fun ust => ⟨1, _, ust, rfl⟩⟩
  have hsurvive : ∀ l, ReferencesSurvive (aliased [83, 120] l) none (.ref 0)
      (Receiver.plain Empty Unit) ⟨[], ()⟩ := fun l =>
    h _ _ _ hread ℕ _ _ _ (regular_aliased (Set.mem_singleton _) l)
  have hsingle := single_of_referencesSurvive ((hread _ rfl).2 _) hsurvive
  exact absurd hsingle.1 (by decide)

end Box

end Felt
