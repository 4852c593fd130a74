import Felt.Lua.Run

/-!
# Pre- and postconditions of a computation

`Triple P x Q E` is partial correctness of a computation that may raise: from
a state that meets `P`, a computation that returns leaves a state that meets
`Q`, and one that raises leaves a state that meets `E`. One that does not end
meets every triple. An error is as much of an outcome as an answer – a
protected call goes on from the state the error was raised in – so no rule
below loses sight of it.

An assertion that holds before and after, however `x` ends, is one that `x`
keeps (`Keeps`). Frame conditions are of this form: *everything else is as it
was in `s₀`* is an assertion like any other.

Triples compose by the rules of the constructs there are: sequence, the
protected call, a list that is gone through, and the primitive operations on a
state. The postcondition for errors goes along with the one for answers in each
of them, since a handler needs it.

`Returns` and `Ends` are about one state to start from and are total: they say
that there is an outcome. They have the same rules, and `Ends.triple` leads from
a fact about each state that meets a precondition to the triple. Which of the
three is used depends on what is to be shown. That a loop survives whatever a
message does is a matter of `Ends`; that nothing happens to the game is one of
triples, where it does not matter whether anything comes to an end.
-/

namespace Felt

namespace Run

variable {σ ε α β : Type}

/-- **`{P} x {Q | E}`**, with `Q` for an answer and `E` for an error. -/
def Triple (P : σ → Prop) (x : Run σ ε α) (Q : α → σ → Prop) (E : ε → σ → Prop) : Prop :=
  ∀ s, P s → match x s with
    | .ok a s' => Q a s'
    | .error e s' => E e s'
    | .timeout => True

/-- **`x` keeps `I`**, whether it returns or raises. -/
def Keeps (I : σ → Prop) (x : Run σ ε α) : Prop := Triple I x (fun _ => I) (fun _ => I)

variable {P P' : σ → Prop} {Q Q' : α → σ → Prop} {E E' : ε → σ → Prop} {x : Run σ ε α}

namespace Triple

/-- What an answer meets. -/
theorem ok (h : Triple P x Q E) {s s' : σ} {a : α} (hs : P s) (hx : x s = .ok a s') :
    Q a s' := by
  have := h s hs
  rwa [hx] at this

/-- What an error meets. -/
theorem error (h : Triple P x Q E) {s s' : σ} {e : ε} (hs : P s) (hx : x s = .error e s') :
    E e s' := by
  have := h s hs
  rwa [hx] at this

/-- What is met however `x` ends is met by the state it leaves. -/
theorem leaves {I : σ → Prop} (h : Triple P x (fun _ => I) (fun _ => I)) {s s' : σ} (hs : P s)
    (hx : Leaves x s s') : I s' := by
  rcases hx with ⟨a, ha⟩ | ⟨e, he⟩
  · exact h.ok hs ha
  · exact h.error hs he

/-- The rule of consequence. -/
theorem weaken (h : Triple P x Q E) (hP : ∀ s, P' s → P s) (hQ : ∀ a s, Q a s → Q' a s)
    (hE : ∀ e s, E e s → E' e s) : Triple P' x Q' E' := by
  intro s hs
  rcases hx : x s with ⟨a, s'⟩ | ⟨e, s'⟩ | _
  · exact hQ a s' (h.ok (hP s hs) hx)
  · exact hE e s' (h.error (hP s hs) hx)
  · trivial

protected theorem pure {a : α} (h : ∀ s, P s → Q a s) : Triple P (pure a) Q E := h

protected theorem throw {e : ε} (h : ∀ s, P s → E e s) :
    Triple P (throw e : Run σ ε α) Q E := h

theorem modify {f : σ → σ} {Q : Unit → σ → Prop} (h : ∀ s, P s → Q () (f s)) :
    Triple P (modify f : Run σ ε Unit) Q E := h

theorem assertSome {v : Option α} {e : ε} (hok : ∀ a, v = some a → ∀ s, P s → Q a s)
    (herr : v = none → ∀ s, P s → E e s) : Triple P (assertSome v e) Q E := by
  cases v with
  | none => exact herr rfl
  | some a => exact hok a rfl

/-- **The rule of sequence.** -/
theorem bind {f : α → Run σ ε β} {M : α → σ → Prop} {Q : β → σ → Prop}
    (hx : Triple P x M E) (hf : ∀ a, Triple (M a) (f a) Q E) : Triple P (x >>= f) Q E := by
  intro s hs
  rcases h : x s with ⟨a, s'⟩ | ⟨e, s'⟩ | _
  · rw [bind_of_ok h]
    exact hf a s' (hx.ok hs h)
  · rw [bind_of_error h]
    exact hx.error hs h
  · rw [bind_of_timeout h]
    trivial

/-- Reading the state gives a name to it. -/
theorem get_bind {f : σ → Run σ ε β} {Q : β → σ → Prop}
    (h : ∀ s, P s → Triple (· = s) (f s) Q E) : Triple P (get >>= f) Q E :=
  fun s hs => h s hs s rfl

/-- Mapping a list with a computation that keeps `I`, and whose answer to each
element is as `D` says. -/
protected theorem mapList {f : α → Run σ ε β} {I : σ → Prop} {D : α → β → Prop} :
    ∀ {l : List α}, (∀ a ∈ l, Triple I (f a) (fun b s => I s ∧ D a b) E) →
      Triple I (Run.mapList f l) (fun bs s => I s ∧ List.Forall₂ D l bs) E
  | [], _ => Triple.pure (fun _ hs => ⟨hs, .nil⟩)
  | a :: l, hf => by
    refine (hf a List.mem_cons_self).bind (fun b s hs => ?_)
    refine Triple.bind (Triple.mapList (fun a' ha => hf a' (List.mem_cons_of_mem a ha)))
      (fun bs => Triple.pure (fun s' hs' => ?_)) s hs.1
    exact ⟨hs'.1, .cons hs.2 hs'.2⟩

/-- **The rule of the protected call**: the handler starts from what the
error left. -/
theorem xpcall {handler : ε → Run σ ε β} {Q' : Unit → σ → Prop}
    (hx : Triple P x Q E) (hQ : ∀ a s, Q a s → Q' () s)
    (hh : ∀ e, Triple (E e) (handler e) (fun _ => Q' ()) (fun _ => Q' ())) :
    Triple P (xpcall x handler) Q' E' := by
  intro s hs
  unfold Run.xpcall
  rcases h : x s with ⟨a, s'⟩ | ⟨e, s'⟩ | _
  · exact hQ a s' (hx.ok hs h)
  · have hE := hx.error hs h
    rcases h' : handler e s' with ⟨b, s''⟩ | ⟨e', s''⟩ | _
    · simp only [h']
      exact (hh e).ok hE h'
    · simp only [h']
      exact (hh e).error hE h'
    · simp only [h']
  · trivial

end Triple

namespace Keeps

variable {I : σ → Prop}

theorem ok (h : Keeps I x) {s s' : σ} {a : α} (hs : I s) (hx : x s = .ok a s') : I s' :=
  Triple.ok h hs hx

protected theorem pure (a : α) : Keeps I (pure a : Run σ ε α) := fun _ hs => hs

protected theorem throw (e : ε) : Keeps I (throw e : Run σ ε α) := fun _ hs => hs

theorem modify {f : σ → σ} (h : ∀ s, I s → I (f s)) : Keeps I (modify f : Run σ ε Unit) := h

theorem assertSome (v : Option α) (e : ε) : Keeps I (assertSome v e) :=
  Triple.assertSome (fun _ _ _ hs => hs) (fun _ _ hs => hs)

theorem bind {f : α → Run σ ε β} (hx : Keeps I x) (hf : ∀ a, Keeps I (f a)) :
    Keeps I (x >>= f) :=
  Triple.bind hx hf

/-- What comes after an assertion is done with the value there is. -/
theorem assertSome_bind {v : Option α} {e : ε} {f : α → Run σ ε β}
    (hf : ∀ a, v = some a → Keeps I (f a)) : Keeps I (Run.assertSome v e >>= f) := by
  cases v with
  | none => exact Keeps.throw e
  | some a => exact hf a rfl

/-- Reading the state changes nothing. -/
theorem get_bind {f : σ → Run σ ε β} (hf : ∀ s, Keeps I (f s)) : Keeps I (get >>= f) :=
  fun s hs => hf s s hs

/-- Running a computation on the elements of a list, each of which keeps `I`. -/
theorem forList_of_mem {f : α → Run σ ε Unit} :
    ∀ {l : List α}, (∀ a ∈ l, Keeps I (f a)) → Keeps I (Run.forList f l)
  | [], _ => Keeps.pure ()
  | a :: _, hf => (hf a List.mem_cons_self).bind (fun _ =>
      forList_of_mem (fun b hb => hf b (List.mem_cons_of_mem a hb)))

theorem forList {f : α → Run σ ε Unit} (hf : ∀ a, Keeps I (f a)) :
    ∀ l : List α, Keeps I (forList f l)
  | [] => Keeps.pure ()
  | a :: l => (hf a).bind (fun _ => forList hf l)

/-- Mapping a list with a computation that keeps `I`. -/
theorem mapList {f : α → Run σ ε β} (hf : ∀ a, Keeps I (f a)) :
    ∀ l : List α, Keeps I (mapList f l)
  | [] => Keeps.pure []
  | a :: l => (hf a).bind (fun _ => (mapList hf l).bind (fun _ => Keeps.pure _))

theorem xpcall {handler : ε → Run σ ε β} (hx : Keeps I x) (hh : ∀ e, Keeps I (handler e)) :
    Keeps I (xpcall x handler) :=
  Triple.xpcall hx (fun _ _ hs => hs) hh

/-- What keeps two assertions keeps both. -/
protected theorem and {J : σ → Prop} (hI : Keeps I x) (hJ : Keeps J x) :
    Keeps (fun s => I s ∧ J s) x := by
  intro s hs
  have h := hI s hs.1
  have h' := hJ s hs.2
  rcases hx : x s with ⟨a, s'⟩ | ⟨e, s'⟩ | _
  · rw [hx] at h h'
    exact ⟨h, h'⟩
  · rw [hx] at h h'
    exact ⟨h, h'⟩
  · trivial

end Keeps

/-! ## Total correctness -/

/-- **`x` returns from `s`**, and its answer and the state it leaves meet
`Q`. -/
def Returns (x : Run σ ε α) (s : σ) (Q : α → σ → Prop) : Prop :=
  ∃ a s', x s = .ok a s' ∧ Q a s'

namespace Returns

variable {s : σ}

theorem weaken (h : Returns x s Q) (hQ : ∀ a s', Q a s' → Q' a s') : Returns x s Q' := by
  obtain ⟨a, s', hx, hq⟩ := h
  exact ⟨a, s', hx, hQ a s' hq⟩

protected theorem pure {a : α} (h : Q a s) : Returns (pure a : Run σ ε α) s Q :=
  ⟨a, s, rfl, h⟩

theorem modify {f : σ → σ} {Q : Unit → σ → Prop} (h : Q () (f s)) :
    Returns (modify f : Run σ ε Unit) s Q :=
  ⟨(), f s, rfl, h⟩

/-- **The rule of sequence.** -/
theorem bind {f : α → Run σ ε β} {M : α → σ → Prop} {Q : β → σ → Prop} (hx : Returns x s M)
    (hf : ∀ a s', M a s' → Returns (f a) s' Q) : Returns (x >>= f) s Q := by
  obtain ⟨a, s', hx, hM⟩ := hx
  obtain ⟨b, s'', hb, hQ⟩ := hf a s' hM
  exact ⟨b, s'', (bind_of_ok hx).trans hb, hQ⟩

theorem get_bind {f : σ → Run σ ε β} {Q : β → σ → Prop} (h : Returns (f s) s Q) :
    Returns (get >>= f) s Q := h

theorem modify_bind {g : σ → σ} {f : Unit → Run σ ε β} {Q : β → σ → Prop}
    (h : Returns (f ()) (g s) Q) : Returns (Run.modify g >>= f) s Q := h

/-- Running a computation that returns and keeps `I` on each element of a
list. -/
theorem forList {f : α → Run σ ε Unit} {I : σ → Prop}
    (hf : ∀ a s, I s → Returns (f a) s (fun _ => I)) :
    ∀ (l : List α) (s : σ), I s → Returns (Run.forList f l) s (fun _ => I)
  | [], _, hs => .pure hs
  | a :: l, s, hs => (hf a s hs).bind (fun _ s' hs' => forList hf l s' hs')

/-- What returns does not leave any other way. -/
theorem of_leaves (h : Returns x s Q) {s' : σ} (hx : Leaves x s s') : ∃ a, Q a s' := by
  obtain ⟨a, t, ht, hQ⟩ := h
  rcases hx with ⟨b, hb⟩ | ⟨e, he⟩
  · rw [ht] at hb
    cases hb
    exact ⟨a, hQ⟩
  · rw [ht] at he
    cases he

end Returns

/-- **`x` ends from `s`**: it answers and leaves what meets `Q`, or raises and
leaves what meets `E`. -/
def Ends (x : Run σ ε α) (s : σ) (Q : α → σ → Prop) (E : ε → σ → Prop) : Prop :=
  (∃ a s', x s = .ok a s' ∧ Q a s') ∨ ∃ e s', x s = .error e s' ∧ E e s'

namespace Ends

variable {s : σ}

theorem of_returns (h : Returns x s Q) : Ends x s Q E := Or.inl h

/-- The state `x` leaves meets one of the two. -/
theorem of_leaves (h : Ends x s Q E) {s' : σ} (hx : Leaves x s s') :
    (∃ a, Q a s') ∨ ∃ e, E e s' := by
  rcases h with h | ⟨e, t, ht, hE⟩
  · exact Or.inl (Returns.of_leaves h hx)
  · rcases hx with ⟨a, ha⟩ | ⟨e', he'⟩
    · rw [ht] at ha
      cases ha
    · rw [ht] at he'
      cases he'
      exact Or.inr ⟨e, hE⟩

theorem weaken (h : Ends x s Q E) (hQ : ∀ a s', Q a s' → Q' a s')
    (hE : ∀ e s', E e s' → E' e s') : Ends x s Q' E' := by
  rcases h with ⟨a, s', hx, hq⟩ | ⟨e, s', hx, he⟩
  · exact Or.inl ⟨a, s', hx, hQ a s' hq⟩
  · exact Or.inr ⟨e, s', hx, hE e s' he⟩

protected theorem pure {a : α} (h : Q a s) : Ends (pure a : Run σ ε α) s Q E :=
  Or.inl ⟨a, s, rfl, h⟩

protected theorem throw {e : ε} (h : E e s) : Ends (throw e : Run σ ε α) s Q E :=
  Or.inr ⟨e, s, rfl, h⟩

theorem assertSome {v : Option α} {e : ε} (hok : ∀ a, v = some a → Q a s)
    (herr : v = none → E e s) : Ends (assertSome v e) s Q E := by
  cases v with
  | none => exact Or.inr ⟨e, s, rfl, herr rfl⟩
  | some a => exact Or.inl ⟨a, s, rfl, hok a rfl⟩

/-- **The rule of sequence.** -/
theorem bind {f : α → Run σ ε β} {M : α → σ → Prop} {Q : β → σ → Prop} (hx : Ends x s M E)
    (hf : ∀ a s', M a s' → Ends (f a) s' Q E) : Ends (x >>= f) s Q E := by
  rcases hx with ⟨a, s', hx, hM⟩ | ⟨e, s', hx, hE⟩
  · rcases hf a s' hM with ⟨b, s'', hb, hQ⟩ | ⟨e, s'', hb, hE⟩
    · exact Or.inl ⟨b, s'', (bind_of_ok hx).trans hb, hQ⟩
    · exact Or.inr ⟨e, s'', (bind_of_ok hx).trans hb, hE⟩
  · exact Or.inr ⟨e, s', bind_of_error hx, hE⟩

theorem get_bind {f : σ → Run σ ε β} {Q : β → σ → Prop} (h : Ends (f s) s Q E) :
    Ends (get >>= f) s Q E := h

/-- What ends leaves what is kept. -/
theorem and_keeps {I : σ → Prop} (h : Ends x s Q E) (hx : Keeps I x) (hs : I s) :
    Ends x s (fun a s' => Q a s' ∧ I s') (fun e s' => E e s' ∧ I s') := by
  rcases h with ⟨a, s', hok, hq⟩ | ⟨e, s', herr, he⟩
  · exact Or.inl ⟨a, s', hok, hq, hx.ok hs hok⟩
  · exact Or.inr ⟨e, s', herr, he, Triple.error hx hs herr⟩

/-- What ends meets a triple. -/
theorem triple {P : σ → Prop} (h : ∀ s, P s → Ends x s Q E) : Triple P x Q E := by
  intro s hs
  rcases h s hs with ⟨a, s', hx, hq⟩ | ⟨e, s', hx, he⟩
  · rwa [hx]
  · rwa [hx]

/-- Mapping a list of computations that all end and keep `I`. -/
theorem mapList {f : α → Run σ ε β} {I : σ → Prop}
    (hf : ∀ a s, I s → Ends (f a) s (fun _ => I) (fun _ => I)) :
    ∀ (l : List α) (s : σ), I s → Ends (mapList f l) s (fun _ => I) (fun _ => I)
  | [], _, hs => .pure hs
  | a :: l, s, hs => (hf a s hs).bind (fun _ s' hs' =>
      (mapList hf l s' hs').bind (fun _ _ hs'' => .pure hs''))

/-- **A protected call leaves what its handler leaves** of what the error
left. -/
theorem xpcall_of_leaves {handler : ε → Run σ ε β} {s' s'' : σ} {e : ε} (hx : x s = .error e s')
    (hh : (handler e).Leaves s' s'') : xpcall x handler s = .ok () s'' := by
  unfold Run.xpcall
  rw [hx]
  rcases hh with ⟨b, hb⟩ | ⟨e', hb⟩
  · simp only [hb]
  · simp only [hb]

/-- **A protected call returns**, if its handler ends. -/
theorem xpcall {handler : ε → Run σ ε β} {Q' : Unit → σ → Prop} (hx : Ends x s Q E)
    (hQ : ∀ a s', Q a s' → Q' () s')
    (hh : ∀ e s', E e s' → Ends (handler e) s' (fun _ => Q' ()) (fun _ => Q' ())) :
    Returns (xpcall x handler) s Q' := by
  rcases hx with ⟨a, s', hx, hq⟩ | ⟨e, s', hx, he⟩
  · refine ⟨(), s', ?_, hQ a s' hq⟩
    unfold Run.xpcall
    rw [hx]
  · rcases hh e s' he with ⟨b, s'', hb, hq⟩ | ⟨e', s'', hb, hq⟩
    · refine ⟨(), s'', ?_, hq⟩
      unfold Run.xpcall
      rw [hx]
      simp only [hb]
    · refine ⟨(), s'', ?_, hq⟩
      unfold Run.xpcall
      rw [hx]
      simp only [hb]

end Ends

end Run

end Felt
