import Felt.Box.Strings
import Felt.Box.WellFormed

/-!
# The places of a message

Encoder and decoder come past the same places: wherever the encoder is about to
pack a value, the decoder is, later and in another process, about to read the
text of it. A `Place` is both moments at once, and `Meets` is how the two of
them get from one place to one below it – through a table or a call object past
the elements in front, which the one has packed and the other has read.

On the way both only add. What the decoder has in `refs` stays there, under
the same number (`Meets.appends`), except that the marker of a call object
becomes the object (`Lasts`); what the encoder has numbered stays so. Two places
of one message are therefore in order, and which of them is first can be told
from what the encoder has numbered at each (`Meets.ordered`).

A place is given by both sides at once, so that a fact about one of them can be
used for the other. Which of two places is first is such a fact. The decoder has
no record of what it came past; but the encoder has numbered what is fresh at the
one place when it comes to the other, and as it only adds, the order can be read
off its state.
-/

namespace Felt

namespace Box

variable {α ω τ : Type} [DecidableEq α] [DecidableEq ω]

/-! ## What the decoder appends -/

/-- A text that gets an entry in `refs`: it starts with `T` or `C`. -/
def Opens (b : Bytes) : Prop := b.head? = some 84 ∨ b.head? = some 67

instance (b : Bytes) : Decidable (Opens b) := inferInstanceAs (Decidable (_ ∨ _))

/-- **What is there stays**, markers aside. -/
def Lasts (ust ust' : UnpackState ω τ) : Prop :=
  ∀ (i : ℕ) (w : Value (Point ω)), w.truthy = true → ust.refs[i]? = some w →
    ust'.refs[i]? = some w

section Decoder

variable {A : Arith} {R : Receiver ω τ} {fuel : ℕ} {b : Bytes} {l : List Bytes}
  {ust ust' ust₁ ust₂ : UnpackState ω τ} {w : Value (Point ω)} {ws : List (Value (Point ω))}

omit [DecidableEq ω] in
theorem Lasts.trans (h₁ : Lasts ust ust₁) (h₂ : Lasts ust₁ ust₂) : Lasts ust ust₂ :=
  fun i w hw hi => h₂ i w hw (h₁ i w hw hi)

omit [DecidableEq ω] in
theorem lasts_of_append (h : ust.refs <+: ust'.refs) : Lasts ust ust' := by
  intro i w _ hi
  obtain ⟨more, hmore⟩ := h
  rw [← hmore, List.getElem?_append_left (List.getElem?_eq_some_iff.mp hi).1, hi]

/-- A walk that only appends does so over a list. -/
theorem prefix_of_mapList_of
    (h : ∀ b (ust ust' : UnpackState ω τ) w, doUnpack A R fuel b ust = .ok w ust' →
      ust.refs <+: ust'.refs)
    (hl : Run.mapList (doUnpack A R fuel) l ust = .ok ws ust') : ust.refs <+: ust'.refs := by
  induction l generalizing ust ws with
  | nil =>
    obtain ⟨-, rfl⟩ := Outcome.ok.inj hl
    exact List.prefix_refl _
  | cons b l ih =>
    obtain ⟨w, ust₁, ws', hb, hl', -⟩ := Run.mapList_cons_eq_ok.mp hl
    exact (h b ust ust₁ w hb).trans (ih hl')

/-- What stands behind the entry of a table or a call object. -/
theorem append_set_of_append {β : Type} {r r' : List β} {x y : β} (h : r ++ [x] <+: r') :
    r ++ [y] <+: r'.set r.length y := by
  obtain ⟨more, rfl⟩ := h
  exact ⟨more, by simp⟩

/-- **Reading appends**: a text only adds to `refs`, and one that is given an
entry leaves in it what it was read as. -/
theorem refs_of_doUnpack (h : doUnpack A R fuel b ust = .ok w ust') :
    ust.refs <+: ust'.refs
      ∧ (Opens b → ust.refs ++ [w] <+: ust'.refs ∧ w.truthy = true) := by
  induction fuel generalizing b ust w ust' with
  | zero => cases h
  | succ fuel ih =>
    have hall : ∀ b (ust ust' : UnpackState ω τ) w, doUnpack A R fuel b ust = .ok w ust' →
        ust.refs <+: ust'.refs := fun b ust ust' w h => (ih h).1
    cases unpackStep_of_doUnpack h with
    | leaf hT hC => exact ⟨List.prefix_refl _, fun hb => absurd hb (not_or.mpr ⟨hT, hC⟩)⟩
    | table htoc hdata hrefs =>
      have hown := prefix_of_mapList_of hall hdata
      rw [← hrefs] at hown
      exact ⟨(List.prefix_append _ _).trans hown, fun _ => ⟨hown, rfl⟩⟩
    | call htoc hdata hv hrefs =>
      have hown := append_set_of_append (y := w) (prefix_of_mapList_of hall hdata)
      rw [← hrefs] at hown
      exact ⟨(List.prefix_append _ _).trans hown, fun _ => ⟨hown, hv⟩⟩

theorem prefix_of_doUnpack (h : doUnpack A R fuel b ust = .ok w ust') :
    ust.refs <+: ust'.refs := (refs_of_doUnpack h).1

theorem prefix_of_mapList (h : Run.mapList (doUnpack A R fuel) l ust = .ok ws ust') :
    ust.refs <+: ust'.refs := prefix_of_mapList_of (fun _ _ _ _ h => prefix_of_doUnpack h) h

/-- **The entry of a text is what it was read as.** -/
theorem own_of_doUnpack (h : doUnpack A R fuel b ust = .ok w ust') (hb : Opens b) :
    ust'.refs[ust.refs.length]? = some w ∧ w.truthy = true := by
  obtain ⟨hown, hw⟩ := (refs_of_doUnpack h).2 hb
  obtain ⟨more, hmore⟩ := hown
  rw [← hmore]
  exact ⟨by simp, hw⟩

theorem doUnpack_unique {m n : ℕ} {w' : Value (Point ω)} (h : doUnpack A R m b ust = .ok w ust₁)
    (h' : doUnpack A R n b ust = .ok w' ust₂) : w = w' ∧ ust₁ = ust₂ := by
  have hmore := doUnpack_of_le (Nat.le_max_left m n) (by rw [h]; nofun)
  have hmore' := doUnpack_of_le (Nat.le_max_right m n) (by rw [h']; nofun)
  exact Outcome.ok.inj (h.symm.trans (hmore.symm.trans (hmore'.trans h')))

theorem mapList_doUnpack_unique {m n : ℕ} {ws' : List (Value (Point ω))}
    (h : Run.mapList (doUnpack A R m) l ust = .ok ws ust₁)
    (h' : Run.mapList (doUnpack A R n) l ust = .ok ws' ust₂) : ws = ws' ∧ ust₁ = ust₂ :=
  Outcome.ok.inj ((mapList_doUnpack_of_le (Nat.le_max_left m n) h).symm.trans
    (mapList_doUnpack_of_le (Nat.le_max_right m n) h'))

end Decoder

/-! ## Places -/

/-- The tag of a cell that is packed with its parts behind it. -/
def Cell.tag : Cell α → Option UInt8
  | .table _ => some 84
  | .object (.call _ _) => some 67
  | _ => none

/-- The state in which what stands behind a tag is read. -/
def UnpackState.enter (ust : UnpackState ω τ) (tag : UInt8) : UnpackState ω τ :=
  if tag = 84 then ust.enterTable else ust.enterCall

/-- **A place**: a value the encoder is about to pack, and the text of it that
the decoder is about to read. -/
structure Place (α ω τ : Type) where
  /-- The value. -/
  value : Value α
  /-- The state of the encoder. -/
  st : PackState α
  /-- The text. -/
  text : Bytes
  /-- The state of the decoder. -/
  ust : UnpackState ω τ

/-- `a` has neither an index nor an id at this place. -/
def Place.Fresh (p : Place α ω τ) (a : α) : Prop :=
  p.value = .ref a ∧ p.st.refs.index a = none ∧ p.st.knownId (.ref a) = none

/-- **Both sides come from one place to another.** -/
inductive Meets (G : Graph α) (R : Receiver ω τ) : Place α ω τ → Place α ω τ → Prop where
  /-- They are there. -/
  | here (p : Place α ω τ) : Meets G R p p
  /-- They go into a table or a call object, past the parts in front. -/
  | part {p q : Place α ω τ} {a : α} {tag : UInt8} {pre post : List (Value α)} {x : Value α}
      {m n : ℕ} {texts : List Bytes} {b : Bytes} {ws : List (Value (Point ω))}
      {st₁ st₂ : PackState α} {ust₁ : UnpackState ω τ} (ha : p.Fresh a)
      (htag : Cell.tag (G a) = some tag) (hparts : (G a).parts = pre ++ x :: post)
      (hpre : Run.mapList (doPack G m) pre (p.st.mark a) = .ok texts st₁)
      (hx : doPack G m x st₁ = .ok b st₂)
      (htexts : Run.mapList (doUnpack .ideal R n) texts (p.ust.enter tag) = .ok ws ust₁)
      (hq : Meets G R ⟨x, st₁, b, ust₁⟩ q) : Meets G R p q
  /-- They go on with what an object is packed as. -/
  | pack {p q : Place α ω τ} {a : α} {w : Value α} (ha : p.Fresh a)
      (hG : G a = .object (.pack none w)) (hq : Meets G R ⟨w, p.st, p.text, p.ust⟩ q) :
      Meets G R p q
  /-- So they do behind one that records its id. -/
  | record {p q : Place α ω τ} {a : α} {id : ℕ} {w : Value α} {st₁ : PackState α}
      (ha : p.Fresh a) (hG : G a = .object (.pack (some id) w))
      (hst : p.st.record a id = some st₁) (hq : Meets G R ⟨w, st₁, p.text, p.ust⟩ q) :
      Meets G R p q

section Places

variable {G : Graph α} {R : Receiver ω τ} {p q : Place α ω τ}

omit [DecidableEq α] in
theorem eq_or_eq_of_tag {a : α} {tag : UInt8} (h : Cell.tag (G a) = some tag) :
    (tag = 84 ∧ ∃ t, G a = .table t)
      ∨ (tag = 67 ∧ ∃ type arg, G a = .object (.call type arg)) := by
  cases hG : G a with
  | table t =>
    rw [hG] at h
    exact Or.inl ⟨(Option.some.inj h).symm, t, rfl⟩
  | object answer =>
    rw [hG] at h
    cases answer with
    | call type arg => exact Or.inr ⟨(Option.some.inj h).symm, type, arg, rfl⟩
    | raw str => cases h
    | pack record w => cases h
    | illegal how => cases h

/-- **The encoder visits all of these places.** -/
theorem Meets.visits (h : Meets G R p q) : Visits G p.value p.st q.value q.st := by
  induction h with
  | here p => exact .self _ _
  | part ha htag hparts hpre hx htexts _ ih =>
    rw [ha.1]
    refine .part ha.2.1 ha.2.2 ?_ hparts hpre ih
    rcases eq_or_eq_of_tag htag with ⟨-, t, hG⟩ | ⟨-, type, arg, hG⟩ <;> rw [hG] <;> rfl
  | pack ha hG _ ih =>
    rw [ha.1]
    exact .part ha.2.1 ha.2.2 (by rw [hG]; rfl) (by rw [hG]; rfl)
      (Run.mapList_nil (doPack G 0) _) ih
  | record ha hG hst _ ih =>
    rw [ha.1]
    exact .part ha.2.1 ha.2.2 (by rw [hG]; exact hst) (by rw [hG]; rfl)
      (Run.mapList_nil (doPack G 0) _) ih

/-- **The encoder only adds** on the way. -/
theorem Meets.extends (h : Meets G R p q) : p.st.Extends q.st := by
  induction h with
  | here p => exact .refl _
  | part ha htag hparts hpre hx htexts _ ih =>
    exact (PackState.extends_mark ha.2.1).trans ((extends_of_mapList_doPack hpre).trans ih)
  | pack ha hG _ ih => exact ih
  | record ha hG hst _ ih => exact (PackState.extends_record hst ha.2.2).trans ih

omit [DecidableEq ω] in
theorem prefix_enter (ust : UnpackState ω τ) (tag : UInt8) :
    ust.refs <+: (ust.enter tag).refs := by
  unfold UnpackState.enter
  split
  · exact List.prefix_append _ _
  · exact List.prefix_append _ _

/-- **So does the decoder.** -/
theorem Meets.appends (h : Meets G R p q) : p.ust.refs <+: q.ust.refs := by
  induction h with
  | here p => exact List.prefix_refl _
  | part ha htag hparts hpre hx htexts _ ih =>
    exact (prefix_enter _ _).trans ((prefix_of_mapList htexts).trans ih)
  | pack ha hG _ ih => exact ih
  | record ha hG hst _ ih => exact ih

/-! ### What is packed and read below a place -/

/-- **A place is packed**: the encoder writes its text, and leaves `st'`. -/
def Place.Packs (G : Graph α) (p : Place α ω τ) (st' : PackState α) : Prop :=
  ∃ n, doPack G n p.value p.st = .ok p.text st'

/-- **A place is read**: the decoder makes `w` of its text, and leaves `ust'`. -/
def Place.ReadAs (R : Receiver ω τ) (p : Place α ω τ) (w : Value (Point ω))
    (ust' : UnpackState ω τ) : Prop :=
  ∃ n, doUnpack .ideal R n p.text p.ust = .ok w ust'

omit [DecidableEq α] in
theorem Place.ReadAs.unique {w w' : Value (Point ω)} {ust₁ ust₂ : UnpackState ω τ}
    (h : p.ReadAs R w ust₁) (h' : p.ReadAs R w' ust₂) : w = w' ∧ ust₁ = ust₂ := by
  obtain ⟨m, hm⟩ := h
  obtain ⟨n, hn⟩ := h'
  exact doUnpack_unique hm hn

/-- **How a fresh table or object is packed**, by what it is. -/
inductive PacksAs (G : Graph α) (p : Place α ω τ) (a : α) (st' : PackState α) : Prop where
  /-- As its tag, and its parts behind a table of contents. -/
  | parts {n : ℕ} {tag : UInt8} {data : List Bytes} (htag : Cell.tag (G a) = some tag)
      (htext : p.text = withToc [tag] data)
      (hdata : Run.mapList (doPack G n) (G a).parts (p.st.mark a) = .ok data st')
  /-- As it says. -/
  | raw (hG : G a = .object (.raw p.text)) (hst : st' = p.st.mark a)
  /-- As something else. -/
  | pack {w : Value α} (hG : G a = .object (.pack none w))
      (hw : Place.Packs G (⟨w, p.st, p.text, p.ust⟩ : Place α ω τ) st')
  /-- As something else, once it has recorded its id. -/
  | record {id : ℕ} {w : Value α} {st₁ : PackState α}
      (hG : G a = .object (.pack (some id) w)) (hst : p.st.record a id = some st₁)
      (hw : Place.Packs G (⟨w, st₁, p.text, p.ust⟩ : Place α ω τ) st')

omit [DecidableEq ω] in
theorem Place.Packs.fresh {a : α} {st' : PackState α} (h : p.Packs G st') (ha : p.Fresh a) :
    PacksAs G p a st' := by
  obtain ⟨n, hn⟩ := h
  obtain ⟨hv, hk, hid⟩ := ha
  rcases n with _ | n
  · cases hn
  rw [hv] at hn
  have hstep := packStep_of_doPack hn
  generalize hu : Value.ref a = u at hstep
  generalize ht : p.text = text at hstep
  cases hstep with
  | ref h =>
    rw [← hu] at h
    exact absurd (hk.symm.trans h) (by simp)
  | obj _ h =>
    rw [← hu, hid] at h
    exact absurd h (by simp)
  | scalar _ h =>
    rw [← hu] at h
    exact absurd h (by simp [scalarText])
  | table _ _ hG hdata =>
    obtain rfl := Value.ref.inj hu
    exact .parts (by rw [hG]; rfl) ht (by rw [hG]; exact hdata)
  | call _ _ hG hdata =>
    obtain rfl := Value.ref.inj hu
    exact .parts (by rw [hG]; rfl) ht (by rw [hG]; exact hdata)
  | raw _ _ hG =>
    obtain rfl := Value.ref.inj hu
    exact .raw (ht ▸ hG) rfl
  | pack _ _ hG hw =>
    obtain rfl := Value.ref.inj hu
    exact .pack hG ⟨n, ht ▸ hw⟩
  | record _ _ hG hst hw =>
    obtain rfl := Value.ref.inj hu
    exact .record hG hst ⟨n, ht ▸ hw⟩

omit [DecidableEq ω] in
/-- A table or a call object is packed as its tag, and its parts behind a table of
contents. -/
theorem Place.Packs.parts {a : α} {tag : UInt8} {st' : PackState α} (h : p.Packs G st')
    (ha : p.Fresh a) (htag : Cell.tag (G a) = some tag) :
    ∃ n data, p.text = withToc [tag] data
      ∧ Run.mapList (doPack G n) (G a).parts (p.st.mark a) = .ok data st' := by
  cases h.fresh ha with
  | parts htag' htext hdata =>
    obtain rfl := Option.some.inj (htag.symm.trans htag')
    exact ⟨_, _, htext, hdata⟩
  | raw hG _ => rw [hG] at htag; cases htag
  | pack hG _ => rw [hG] at htag; cases htag
  | record hG _ _ => rw [hG] at htag; cases htag

omit [DecidableEq ω] in
/-- An object that is packed as something else is packed where that is. -/
theorem Place.Packs.pack {a : α} {w : Value α} {st' : PackState α} (h : p.Packs G st')
    (ha : p.Fresh a) (hG : G a = .object (.pack none w)) :
    Place.Packs G (⟨w, p.st, p.text, p.ust⟩ : Place α ω τ) st' := by
  cases h.fresh ha with
  | parts htag _ _ => rw [hG] at htag; cases htag
  | raw hG' _ => exact absurd (hG.symm.trans hG') (by simp)
  | pack hG' hw =>
    obtain rfl : w = _ := by simpa using hG.symm.trans hG'
    exact hw
  | record hG' _ _ => exact absurd (hG.symm.trans hG') (by simp)

omit [DecidableEq ω] in
theorem Place.Packs.record {a : α} {id : ℕ} {w : Value α} {st₁ st' : PackState α}
    (h : p.Packs G st') (ha : p.Fresh a) (hG : G a = .object (.pack (some id) w))
    (hst : p.st.record a id = some st₁) :
    Place.Packs G (⟨w, st₁, p.text, p.ust⟩ : Place α ω τ) st' := by
  cases h.fresh ha with
  | parts htag _ _ => rw [hG] at htag; cases htag
  | raw hG' _ => exact absurd (hG.symm.trans hG') (by simp)
  | pack hG' _ => exact absurd (hG.symm.trans hG') (by simp)
  | record hG' hst' hw =>
    obtain ⟨rfl, rfl⟩ : _ = _ ∧ w = _ := by simpa using hG.symm.trans hG'
    obtain rfl := Option.some.inj (hst.symm.trans hst')
    exact hw

omit [DecidableEq α] in
/-- A table or a call object is read element by element, behind its entry. -/
theorem Place.ReadAs.parts {a : α} {tag : UInt8} {data : List Bytes} {w : Value (Point ω)}
    {ust' : UnpackState ω τ} (h : p.ReadAs R w ust') (htext : p.text = withToc [tag] data)
    (htag : Cell.tag (G a) = some tag) (hlen : data.length = (G a).parts.length) :
    ∃ n ws ust₁, Run.mapList (doUnpack .ideal R n) data (p.ust.enter tag) = .ok ws ust₁
      ∧ Lasts ust₁ ust' := by
  obtain ⟨n, hn⟩ := h
  rcases n with _ | n
  · cases hn
  rw [htext] at hn
  have htoc := isToc_maketoc data
  rcases eq_or_eq_of_tag htag with ⟨rfl, t, hG⟩ | ⟨rfl, type, arg, hG⟩
  · have hstep := unpackStep_of_doUnpack hn
    generalize hb : withToc [84] data = b at hstep
    cases hstep with
    | leaf hT hC => rw [← hb] at hT; exact absurd rfl hT
    | table hread hdata hrefs =>
      obtain rfl := (List.cons.inj hb).2
      obtain rfl := eq_of_readtoc (Arith.exact_ideal _) htoc hread
      exact ⟨n, _, _, hdata, lasts_of_append (by rw [hrefs])⟩
    | call _ _ _ _ => exact absurd (List.cons.inj hb).1 (by decide)
  · have hstep := unpackStep_of_doUnpack hn
    generalize hb : withToc [67] data = b at hstep
    cases hstep with
    | leaf hT hC => rw [← hb] at hC; exact absurd rfl hC
    | table _ _ _ => exact absurd (List.cons.inj hb).1 (by decide)
    | @call _ x y more ws v _ st₁ _ hread hdata hv hrefs =>
      obtain rfl := (List.cons.inj hb).2
      obtain heq := eq_of_readtoc (Arith.exact_ideal _) htoc hread
      obtain rfl : more = [] := by
        rw [← heq, hG] at hlen
        simpa [Cell.parts] using hlen
      subst heq
      refine ⟨n, ws, st₁, hdata, fun i u hu hi => ?_⟩
      -- the entry that is overwritten still has its marker
      have hmarker : st₁.refs[p.ust.refs.length]? = some (.boolean false) := by
        obtain ⟨more, hmore⟩ := prefix_of_mapList hdata
        rw [← hmore]
        simp [UnpackState.enterCall]
      have hne : i ≠ p.ust.refs.length := fun h => by
        rw [h, hmarker] at hi
        rw [← Option.some.inj hi] at hu
        cases hu
      rw [hrefs, List.getElem?_set_ne hne.symm, hi]

/-- **What is below a place that is packed is packed**, and the encoder has
nothing less in the end. -/
theorem Meets.packs {st' : PackState α} (h : Meets G R p q) (hp : p.Packs G st') :
    ∃ st'', q.Packs G st'' ∧ st''.Extends st' := by
  induction h generalizing st' with
  | here p => exact ⟨st', hp, .refl _⟩
  | part ha htag hparts hpre hx htexts _ ih =>
    obtain ⟨k, data, -, hdata⟩ := hp.parts ha htag
    rw [hparts] at hdata
    obtain ⟨texts', rest, s₁, hpre', hrest, -⟩ := Run.mapList_append_eq_ok.mp hdata
    obtain ⟨-, rfl⟩ := mapList_doPack_unique hpre hpre'
    obtain ⟨b', s₂, _, hx', hpost, -⟩ := Run.mapList_cons_eq_ok.mp hrest
    obtain ⟨rfl, rfl⟩ := doPack_unique hx hx'
    obtain ⟨st'', hq, hext⟩ := ih ⟨_, hx⟩
    exact ⟨st'', hq, hext.trans (extends_of_mapList_doPack hpost)⟩
  | pack ha hG _ ih => exact ih (hp.pack ha hG)
  | record ha hG hst _ ih => exact ih (hp.record ha hG hst)

/-- **What is below a place that is read is read**, and what it has left lasts. -/
theorem Meets.read {st' : PackState α} {w : Value (Point ω)} {ust' : UnpackState ω τ}
    (h : Meets G R p q) (hp : p.Packs G st') (hr : p.ReadAs R w ust') :
    ∃ w' ust'', q.ReadAs R w' ust'' ∧ Lasts ust'' ust' := by
  induction h generalizing st' w ust' with
  | here p => exact ⟨w, ust', hr, lasts_of_append (List.prefix_refl _)⟩
  | part ha htag hparts hpre hx htexts _ ih =>
    obtain ⟨k, data, htext, hdata⟩ := hp.parts ha htag
    obtain ⟨l, ws, ust₁, hread, hlasts⟩ := hr.parts htext htag (Run.length_of_mapList hdata)
    rw [hparts] at hdata
    obtain ⟨texts', rest, s₁, hpre', hrest, rfl⟩ := Run.mapList_append_eq_ok.mp hdata
    obtain ⟨rfl, rfl⟩ := mapList_doPack_unique hpre hpre'
    obtain ⟨b', s₂, post', hx', hpost, rfl⟩ := Run.mapList_cons_eq_ok.mp hrest
    obtain ⟨rfl, rfl⟩ := doPack_unique hx hx'
    obtain ⟨ws₁, ws₂, u₁, htexts', hread, -⟩ := Run.mapList_append_eq_ok.mp hread
    obtain ⟨-, rfl⟩ := mapList_doUnpack_unique htexts htexts'
    obtain ⟨w₁, u₂, ws₃, hb, hread, -⟩ := Run.mapList_cons_eq_ok.mp hread
    obtain ⟨w', ust'', hq, hlasts'⟩ := ih ⟨_, hx⟩ ⟨_, hb⟩
    exact ⟨w', ust'', hq,
      hlasts'.trans ((lasts_of_append (prefix_of_mapList hread)).trans hlasts)⟩
  | pack ha hG _ ih => exact ih (hp.pack ha hG) hr
  | record ha hG hst _ ih => exact ih (hp.record ha hG hst) hr

/-! ### Two places of a message -/

omit [DecidableEq α] [DecidableEq ω] in
/-- Two elements of a list are one, or one of them is in front of the other. -/
theorem split_cases {β : Type} {pre₁ pre₂ post₁ post₂ : List β} {x₁ x₂ : β}
    (h : pre₁ ++ x₁ :: post₁ = pre₂ ++ x₂ :: post₂) :
    (pre₁ = pre₂ ∧ x₁ = x₂) ∨ (∃ mid, pre₂ = pre₁ ++ x₁ :: mid)
      ∨ ∃ mid, pre₁ = pre₂ ++ x₂ :: mid := by
  induction pre₁ generalizing pre₂ with
  | nil =>
    rcases pre₂ with _ | ⟨y, pre₂⟩
    · exact Or.inl ⟨rfl, (List.cons.inj h).1⟩
    · exact Or.inr (Or.inl ⟨pre₂, by rw [(List.cons.inj h).1]; rfl⟩)
  | cons y pre₁ ih =>
    rcases pre₂ with _ | ⟨z, pre₂⟩
    · exact Or.inr (Or.inr ⟨pre₁, by rw [← (List.cons.inj h).1]; rfl⟩)
    · obtain ⟨rfl, htail⟩ := List.cons.inj h
      rcases ih htail with ⟨rfl, rfl⟩ | ⟨mid, rfl⟩ | ⟨mid, rfl⟩
      · exact Or.inl ⟨rfl, rfl⟩
      · exact Or.inr (Or.inl ⟨mid, rfl⟩)
      · exact Or.inr (Or.inr ⟨mid, rfl⟩)

/-- **Both sides are done with a place** when they come to another. -/
structure Finished (G : Graph α) (R : Receiver ω τ) (p q : Place α ω τ) : Prop where
  /-- It is packed. -/
  packs : ∃ st', p.Packs G st' ∧ st'.Extends q.st
  /-- It is read, and what it has left is there. -/
  read : ∃ w ust', p.ReadAs R w ust' ∧ Lasts ust' q.ust

/-- **Both sides are done with what is below a part** when they are below a later
one. -/
theorem finished_of_before {m m' n : ℕ} {pre mid : List (Value α)} {x y : Value α}
    {texts texts' : List Bytes} {b b' : Bytes} {ws ws' : List (Value (Point ω))}
    {st st₁ st₂ st₃ : PackState α} {ust ust₁ ust₃ : UnpackState ω τ} {p₁ p₂ : Place α ω τ}
    (hpre : Run.mapList (doPack G m) pre st = .ok texts st₁)
    (hx : doPack G m x st₁ = .ok b st₂)
    (htexts : Run.mapList (doUnpack .ideal R n) texts ust = .ok ws ust₁)
    (h₁ : Meets G R ⟨x, st₁, b, ust₁⟩ p₁)
    (hpre' : Run.mapList (doPack G m') (pre ++ x :: mid) st = .ok texts' st₃)
    (htexts' : ∃ n', Run.mapList (doUnpack .ideal R n') texts' ust = .ok ws' ust₃)
    (h₂ : Meets G R ⟨y, st₃, b', ust₃⟩ p₂) : Finished G R p₁ p₂ := by
  obtain ⟨n', htexts'⟩ := htexts'
  obtain ⟨data, rest, s₁, hdata, hrest, rfl⟩ := Run.mapList_append_eq_ok.mp hpre'
  obtain ⟨rfl, rfl⟩ := mapList_doPack_unique hpre hdata
  obtain ⟨c, s₂, mids, hc, hmid, rfl⟩ := Run.mapList_cons_eq_ok.mp hrest
  obtain ⟨rfl, rfl⟩ := doPack_unique hx hc
  obtain ⟨ws₁, ws₂, u₁, hread, hrest', -⟩ := Run.mapList_append_eq_ok.mp htexts'
  obtain ⟨-, rfl⟩ := mapList_doUnpack_unique htexts hread
  obtain ⟨w, u₂, ws₃, hb, hmids, -⟩ := Run.mapList_cons_eq_ok.mp hrest'
  obtain ⟨st', hpacks, hext⟩ := h₁.packs ⟨_, hx⟩
  obtain ⟨w', ust', hreads, hlasts⟩ := h₁.read ⟨_, hx⟩ ⟨_, hb⟩
  exact ⟨⟨st', hpacks, hext.trans ((extends_of_mapList_doPack hmid).trans h₂.extends)⟩,
    ⟨w', ust', hreads, hlasts.trans
      (lasts_of_append ((prefix_of_mapList hmids).trans h₂.appends))⟩⟩

/-- **Of two places of a message, one where `a` is fresh and one where it has an
index, the first comes first**: the other is below it, or both sides are done
with it when they come to the other. -/
theorem Meets.ordered {p₁ p₂ : Place α ω τ} {a : α} {k : ℕ} (h₁ : Meets G R p p₁)
    (h₂ : Meets G R p p₂) (ha : p₁.Fresh a) (hk : p₂.st.refs.index a = some k) :
    Meets G R p₁ p₂ ∨ Finished G R p₁ p₂ := by
  -- the encoder has come further at the second place, so it is not above the first
  have hlater : ¬ p₂.st.Extends p₁.st := fun h => by
    have := ha.2.1.symm.trans (h.index a k hk)
    cases this
  induction h₁ with
  | here p => exact Or.inl h₂
  | part hc htag hparts hpre hx htexts hq ih =>
    cases h₂ with
    | here => exact absurd (Meets.part hc htag hparts hpre hx htexts hq).extends hlater
    | part hc' htag' hparts' hpre' hx' htexts' hq' =>
      obtain rfl := Value.ref.inj (hc.1.symm.trans hc'.1)
      obtain rfl := Option.some.inj (htag.symm.trans htag')
      -- both ways go through the same table: by the same part, by a later one, or by an earlier one
      rcases split_cases (hparts.symm.trans hparts') with ⟨rfl, rfl⟩ | ⟨mid, rfl⟩ | ⟨mid, rfl⟩
      · obtain ⟨rfl, rfl⟩ := mapList_doPack_unique hpre hpre'
        obtain ⟨-, rfl⟩ := mapList_doUnpack_unique htexts htexts'
        obtain ⟨rfl, -⟩ := doPack_unique hx hx'
        exact ih hq' ha hlater
      · exact Or.inr (finished_of_before hpre hx htexts hq hpre' ⟨_, htexts'⟩ hq')
      · obtain ⟨st', ⟨n, hpacks⟩, hext⟩ :=
          (finished_of_before hpre' hx' htexts' hq' hpre ⟨_, htexts⟩ hq).packs
        exact absurd ((extends_of_doPack hpacks).trans hext) hlater
    -- what stands at a point is one thing, so the two ways go on alike
    | pack hc' hG' _ =>
      obtain rfl := Value.ref.inj (hc.1.symm.trans hc'.1)
      rw [hG'] at htag
      cases htag
    | record hc' hG' _ _ =>
      obtain rfl := Value.ref.inj (hc.1.symm.trans hc'.1)
      rw [hG'] at htag
      cases htag
  | pack hc hG hq ih =>
    cases h₂ with
    | here => exact absurd (Meets.pack hc hG hq).extends hlater
    | part hc' htag' _ _ _ _ _ =>
      obtain rfl := Value.ref.inj (hc.1.symm.trans hc'.1)
      rw [hG] at htag'
      cases htag'
    | pack hc' hG' hq' =>
      obtain rfl := Value.ref.inj (hc.1.symm.trans hc'.1)
      obtain ⟨-, rfl⟩ : True ∧ _ = _ := by simpa using hG.symm.trans hG'
      exact ih hq' ha hlater
    | record hc' hG' _ _ =>
      obtain rfl := Value.ref.inj (hc.1.symm.trans hc'.1)
      exact absurd (hG.symm.trans hG') (by simp)
  | record hc hG hst hq ih =>
    cases h₂ with
    | here => exact absurd (Meets.record hc hG hst hq).extends hlater
    | part hc' htag' _ _ _ _ _ =>
      obtain rfl := Value.ref.inj (hc.1.symm.trans hc'.1)
      rw [hG] at htag'
      cases htag'
    | pack hc' hG' _ =>
      obtain rfl := Value.ref.inj (hc.1.symm.trans hc'.1)
      exact absurd (hG.symm.trans hG') (by simp)
    | record hc' hG' hst' hq' =>
      obtain rfl := Value.ref.inj (hc.1.symm.trans hc'.1)
      obtain ⟨rfl, rfl⟩ : _ = _ ∧ _ = _ := by simpa using hG.symm.trans hG'
      obtain rfl := Option.some.inj (hst.symm.trans hst')
      exact ih hq' ha hlater

end Places

end Box

end Felt
