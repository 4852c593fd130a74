import Felt.Box.Unpack
import Felt.Lua.Triple

/-!
# What decoding does to the world

`box.unpack` itself only makes tables. All it can do to the rest of the
receiver's memory is done by the modules that values of tag `C` have it load:
what every module keeps, a call of `box.unpack` keeps (`doUnpack_keeps`).

The assertion `J` is any, so that this serves for whatever part of the receiver
is of interest: the tables of sessions, or the whole of it. It is about the world
alone. Tables are made and filled all the time, and what is in them is a matter of
the message.
-/

namespace Felt

namespace Box

variable {ω τ : Type} {J : τ → Prop} {R : Receiver ω τ}

/-- Code that keeps `J` of the world, whether it returns or raises. -/
def KeepsWorld {β : Type} (J : τ → Prop) (f : Effect ω τ β) : Prop :=
  ∀ store, J store.world → J (f store).2.world

/-- **Modules that keep `J` of the world**: loading one does, and so does the
`__unpack` of each. -/
structure Receiver.Keeps (R : Receiver ω τ) (J : τ → Prop) : Prop where
  /-- Loading a module keeps it. -/
  require : ∀ type, KeepsWorld J (R.require type)
  /-- What is loaded keeps it. -/
  unpack : ∀ type store unpack, (R.require type store).1 = .ok (some unpack) →
    ∀ arg, KeepsWorld J (unpack arg)

/-- The assertion on the decoder's state. -/
abbrev Holds (J : τ → Prop) (st : UnpackState ω τ) : Prop := J st.store.world

theorem readtoc_keeps {σ : Type} (I : σ → Prop) (A : Arith) (fuel : ℕ) (buf : Bytes) :
    Run.Keeps I (readtoc A fuel buf) := by
  unfold readtoc
  split
  · exact Run.Keeps.throw _
  · split
    · exact Run.Keeps.throw _
    · split
      · exact fun _ _ => trivial
      · exact Run.Keeps.pure _
      · exact Run.Keeps.throw _
      · exact Run.Keeps.pure _

/-- What `readtoc` answers, and that it leaves everything as it is. -/
theorem readtoc_triple {σ : Type} (I : σ → Prop) (A : Arith) (fuel : ℕ) (buf : Bytes) :
    Run.Triple I (readtoc A fuel buf) (fun elements s => I s
      ∧ readtoc A fuel buf () = .ok elements ()) (fun _ => I) := by
  intro s hs
  have h := readtoc_keeps I A fuel buf s hs
  rcases hx : (readtoc A fuel buf : Run σ BoxError (List Bytes)) s with ⟨a, s'⟩ | ⟨e, s'⟩ | _
  · rw [hx] at h
    exact ⟨h, readtoc_state hx ()⟩
  · rw [hx] at h
    exact h
  · trivial

/-- What is answered by code that keeps `J`, in some memory. -/
theorem callOut_answers {β : Type} {f : Effect ω τ β} (hf : KeepsWorld J f) :
    Run.Triple (Holds J) (callOut f)
      (fun x st' => Holds J st' ∧ ∃ store, (f store).1 = .ok x) (fun _ => Holds J) := by
  refine Run.Triple.get_bind (fun st hst => ?_)
  refine Run.Triple.bind (M := fun _ st' => Holds J st')
    (Run.Triple.modify (fun _ _ => hf st.store hst)) (fun _ => ?_)
  rcases hx : (f st.store).1 with e | x
  · exact Run.Triple.throw (fun _ h => h)
  · exact Run.Triple.pure (fun _ h => ⟨h, st.store, hx⟩)

theorem callOut_keeps {β : Type} {f : Effect ω τ β} (hf : KeepsWorld J f) :
    Run.Keeps (Holds J) (callOut f) :=
  (callOut_answers hf).weaken (fun _ h => h) (fun _ _ h => h.1) (fun _ _ h => h)

/-- Making an object keeps what the modules keep. -/
theorem instantiate_keeps (h : R.Keeps J) (type arg : Value (Point ω)) :
    Run.Keeps (Holds J) (instantiate R type arg) := by
  refine (callOut_keeps (h.require type)).bind (fun mm => ?_)
  refine (Run.Keeps.assertSome mm _).bind (fun _ => ?_)
  refine Run.Triple.bind (callOut_answers (h.require type)) (fun mm' => ?_)
  refine Run.Triple.bind (M := fun unpack st => Holds J st
      ∧ ∃ store, (R.require type store).1 = .ok (some unpack)) ?_ (fun unpack => ?_)
  · exact Run.Triple.assertSome (fun _ hmm _ hst => ⟨hst.1, hmm ▸ hst.2⟩) (fun _ _ hst => hst.1)
  · refine Run.Triple.bind (M := fun _ st => Holds J st
        ∧ ∃ store, (R.require type store).1 = .ok (some unpack))
      (Run.Triple.modify (fun _ hst => hst)) (fun _ st hst => ?_)
    obtain ⟨hst, store, hunpack⟩ := hst
    refine ((callOut_keeps (h.unpack type store unpack hunpack arg)).bind (fun obj => ?_)) st hst
    split
    · exact Run.Keeps.pure obj
    · exact Run.Keeps.throw _

section Elements

variable [DecidableEq ω]

theorem setEntry_keeps (i : ℕ) (k v : Value (Point ω)) :
    Run.Keeps (Holds J) (setEntry i k v) := by
  unfold setEntry
  split
  · exact Run.Keeps.modify (fun _ hst => hst)
  · exact Run.Keeps.throw _

theorem setEntries_keeps (i : ℕ) :
    ∀ data : List (Value (Point ω)), Run.Keeps (Holds J) (setEntries i data)
  | [] => Run.Keeps.pure ()
  | [k] => setEntry_keeps i k .nil
  | k :: v :: data => (setEntry_keeps i k v).bind (fun _ => setEntries_keeps i data)

theorem unpackT_keeps {toc : Bytes → Run (UnpackState ω τ) BoxError (List Bytes)}
    {up : Bytes → Run (UnpackState ω τ) BoxError (Value (Point ω))}
    (htoc : ∀ buf, Run.Keeps (Holds J) (toc buf)) (hup : ∀ buf, Run.Keeps (Holds J) (up buf))
    (buf : Bytes) : Run.Keeps (Holds J) (unpackT R toc up buf) := by
  have hnew : Run.Keeps (Holds J) (newTable : Run (UnpackState ω τ) BoxError ℕ) := by
    refine Run.Keeps.get_bind (fun st => Run.Keeps.bind ?_ (fun _ => Run.Keeps.pure _))
    exact Run.Keeps.modify (fun _ hst => hst)
  refine hnew.bind (fun i => ?_)
  refine Run.Keeps.bind (Run.Keeps.modify (fun _ hst => hst)) (fun _ => ?_)
  refine (htoc buf).bind (fun elements => ?_)
  refine (Run.Keeps.mapList hup elements).bind (fun data => ?_)
  refine (setEntries_keeps i _).bind (fun _ => ?_)
  exact Run.Keeps.bind (Run.Keeps.modify (fun _ hst => hst)) (fun _ => Run.Keeps.pure _)

omit [DecidableEq ω] in
theorem unpackC_keeps (h : R.Keeps J) {toc : Bytes → Run (UnpackState ω τ) BoxError (List Bytes)}
    {up : Bytes → Run (UnpackState ω τ) BoxError (Value (Point ω))}
    (htoc : ∀ buf, Run.Keeps (Holds J) (toc buf)) (hup : ∀ buf, Run.Keeps (Holds J) (up buf))
    (buf : Bytes) : Run.Keeps (Holds J) (unpackC R toc up buf) := by
  refine Run.Keeps.get_bind (fun st => ?_)
  refine Run.Keeps.bind (Run.Keeps.modify (fun _ hst => hst)) (fun _ => ?_)
  refine (htoc buf).bind (fun data => ?_)
  refine Run.Keeps.bind ((Run.Keeps.assertSome _ _).bind hup) (fun type => ?_)
  refine Run.Keeps.bind ((Run.Keeps.assertSome _ _).bind hup) (fun arg => ?_)
  refine (instantiate_keeps h type arg).bind (fun obj => ?_)
  exact Run.Keeps.bind (Run.Keeps.modify (fun _ hst => hst)) (fun _ => Run.Keeps.pure _)

/-- **What every module keeps of the world, decoding a message keeps.** -/
theorem doUnpack_keeps (A : Arith) (h : R.Keeps J) (fuel : ℕ) (buf : Bytes) :
    Run.Keeps (Holds J) (doUnpack A R fuel buf) := by
  induction fuel generalizing buf with
  | zero => exact fun _ _ => trivial
  | succ fuel ih =>
    unfold doUnpack
    split
    · exact fun _ _ => trivial
    · exact Run.Keeps.throw _
    · exact Run.Keeps.pure _
    · exact Run.Keeps.pure _
    · exact Run.Keeps.pure _
    · exact (Run.Keeps.assertSome _ _).bind (fun _ => Run.Keeps.pure _)
    · exact Run.Keeps.pure _
    · refine Run.Keeps.get_bind (fun st => (Run.Keeps.assertSome _ _).bind (fun v => ?_))
      split
      · exact Run.Keeps.pure v
      · exact Run.Keeps.throw _
    · exact Run.Keeps.get_bind (fun st => (Run.Keeps.assertSome _ _).bind
        (fun _ => (Run.Keeps.assertSome _ _).bind (fun _ => Run.Keeps.pure _)))
    · next heq =>
      obtain rfl := Nat.succ.inj heq
      exact unpackT_keeps (readtoc_keeps _ A fuel) ih _
    · next heq =>
      obtain rfl := Nat.succ.inj heq
      exact unpackC_keeps h (readtoc_keeps _ A fuel) ih _
    · exact Run.Keeps.throw _

end Elements

end Box

end Felt
