import Felt.Server.Entries
import Felt.Server.Survival

/-!
# A call that is received

`receiveOne` reads a frame, unpacks it and dispatches the table it gets. When
the table is one that a client has written for a call, `table.unpack` answers
the arguments of the call and no others: a border of the table is behind the
last of them, whatever border the interpreter picks. So the method that is
named is called on the object that was looked up.

The methods of entities are left open by an `Installation`. `Shipped` says that
they are those of `act`.

This is asked of a method for two numbers as its arguments, and only where `act`
ends. `Installation.standard` has such methods. It cannot load a module, and need
not, as there is no value of tag `C` in a request.
-/

namespace Felt

open Box (Point)

open Net (IsCall position received)

namespace Run

variable {σ ε α β : Type}

/-- **An error that is caught** leaves what the handler leaves. -/
theorem leaves_xpcall_error {x : Run σ ε α} {handler : ε → Run σ ε β} {s s₁ s' : σ} {e : ε}
    (hx : x s = .error e s₁) : (xpcall x handler).Leaves s s' ↔ (handler e).Leaves s₁ s' :=
  ⟨Leaves.of_xpcall hx, fun hl => Or.inl ⟨(), Ends.xpcall_of_leaves hx hl⟩⟩

end Run

namespace Net

open Box

variable {α ω : Type} [DecidableEq ω] {t : Table α} {obj : Value α} {method : Bytes}
  {args : List (Value α)}

/-- **Nothing is behind the arguments.** -/
theorem IsCall.lt_of_rawget (ht : IsCall t obj method args) (φ : α → Point ω)
    (hfits : (args.length : ℤ) + 3 ≤ maxCStack) {k : ℕ}
    (hk : rawget (received φ t) (position k) ≠ .nil) : k < args.length := by
  rcases rawget_received φ t (position k) with ⟨-, hnil⟩ | ⟨p, hp, hkey, -⟩
  · exact absurd hnil hk
  obtain ⟨-, hself | hmethod | ⟨i, hi, hget⟩⟩ := (ht.mem p.1 p.2).mp hp
  · rw [hself.1] at hkey
    exact absurd hkey (by simp [decode, position])
  · rw [hmethod.1] at hkey
    exact absurd hkey (by simp [decode, position])
  · have hlt : i < args.length := (List.getElem?_eq_some_iff.mp hget).1
    rw [maxCStack] at hfits
    rw [hi, decode_position φ (by omega), significant_of_lt (by rw [Nat.abs_cast]; omega)] at hkey
    exact position_injective (β := Point ω) hkey ▸ hlt

/-- **Without a hole the border is behind the last argument.** -/
theorem IsCall.eq_length (ht : IsCall t obj method args) (φ : α → Point ω)
    (hfits : (args.length : ℤ) + 3 ≤ maxCStack) (hargs : ∀ v ∈ args, v ≠ .nil) {n : ℕ}
    (hn : IsLength (received φ t) n) : n = args.length := by
  rcases lt_trichotomy n args.length with hlt | heq | hgt
  · have hpos : ((n + 1 : ℕ) : ℤ) + 3 ≤ maxCStack := by
      rw [maxCStack] at hfits ⊢
      omega
    have hnext := hn.next
    rw [ht.rawget_position φ hpos, List.getD_eq_getElem?_getD, List.getElem?_eq_getElem hlt,
      Option.getD_some] at hnext
    exact absurd hnext (decode_ne_nil φ (hargs _ (List.getElem_mem hlt)))
  · exact heq
  · obtain ⟨k, rfl⟩ : ∃ k, n = k + 1 := ⟨n - 1, by omega⟩
    have hlt := ht.lt_of_rawget φ hfits (hn.last k rfl)
    omega

/-- The table of a call has no more elements than it was made with. -/
theorem IsCall.length_elements [DecidableEq α] (ht : IsCall t obj method args) :
    t.elements.length ≤ 2 * (args.length + 2) := by
  have hsub : t.pairs.Subperm (callTable obj method args).pairs := by
    refine List.Nodup.subperm (List.Nodup.of_map _ t.nodup) (fun p hp => ?_)
    exact ((isCall_callTable obj method args ht.obj_eq ht.length_le).mem p.1 p.2).mpr
      ((ht.mem p.1 p.2).mp hp)
  have hlength : t.pairs.length ≤ args.length + 2 := by
    refine hsub.length_le.trans ((List.length_filter_le _ _).trans ?_)
    rw [List.length_cons, List.length_cons, List.length_map, List.length_zipIdx]
  have helements : t.elements.length = 2 * t.pairs.length := by
    unfold Table.elements
    rw [List.length_flatMap]
    simp [mul_comm]
  omega

end Net

namespace Server

/-! ## What the server runs on -/

/-- **The shipped server**: its arithmetic is exact, it goes as deep as a
request goes, and its entities have the methods that the classes list. -/
structure Installation.Shipped (I : Installation) (fuel : ℕ) : Prop where
  /-- Counts and positions are exact. -/
  arith : I.arith = .ideal
  /-- `box.unpack` may read the eight elements of a request. -/
  depth : 10 ≤ I.fuel
  /-- A method is what `act` says, for coordinates that are numbers. -/
  method : ∀ (e : ℕ) (name : Bytes) (method : Method), Method.ofName name = some method →
    ∃ f, I.method (.entity e) (.string name) = some f ∧ ∀ who (x y : ℚ) g,
      act I.site.length (fuel + 1) e method who (some x) (some y) g ≠ .timeout →
        runMethod (f who [.number (.fin x), .number (.fin y)]) g
          = act I.site.length (fuel + 1) e method who (some x) (some y) g

/-- The method of an entity, as `act` has it. -/
def methodOf (S : Site) (fuel e : ℕ) (method : Method) (who : Option ℕ) (args : List Datum)
    (g : Game (Point Obj)) : Except GameError Unit × Game (Point Obj) :=
  match args with
  | [.number (.fin x), .number (.fin y)] =>
    match act S.length (fuel + 1) e method who (some x) (some y) g with
    | .ok _ g' => (.ok (), g')
    | .error err g' => (.error err, g')
    | .timeout => (.ok (), g)
  | _ => (.error (.refused "arithmetic on nil"), g)

/-- **A server that has the shipped methods**, and no modules to load. -/
def Installation.standard (S : Site) (fuel : ℕ) : Installation :=
  { Installation.bare with
    site := S
    fuel := 10
    method := fun o name =>
      match o, name with
      | .entity e, .string name => (Method.ofName name).map (methodOf S fuel e)
      | _, _ => none }

theorem shipped_standard (S : Site) (fuel : ℕ) : (Installation.standard S fuel).Shipped fuel where
  arith := rfl
  depth := le_rfl
  method e name method hname := by
    refine ⟨methodOf S fuel e method, congrArg (Option.map _) hname, fun who x y g hends => ?_⟩
    change act S.length (fuel + 1) e method who (some x) (some y) g ≠ .timeout at hends
    show runMethod (methodOf S fuel e method who [.number (.fin x), .number (.fin y)]) g
      = act S.length (fuel + 1) e method who (some x) (some y) g
    rcases hact : act S.length (fuel + 1) e method who (some x) (some y) g
      with ⟨_, g'⟩ | ⟨e', g'⟩ | _
    · simp only [runMethod, methodOf, hact]
      rfl
    · simp only [runMethod, methodOf, hact]
      rfl
    · exact absurd hact hends

section Receive

variable {I : Installation} {m : Machine}

theorem index_table (i : ℕ) (key : Datum) :
    index (.ref (.table i)) key m = .ok (Box.rawget (m.tables.getD i []) key) m := rfl

/-- **The arguments of a call** are those that arrive. -/
theorem arguments_of_isCall {α : Type} {t : Table α} {obj : Value α} {name : Bytes}
    {args : List (Value α)} (ht : IsCall t obj name args) (φ : α → Point Obj)
    (hfits : (args.length : ℤ) + 3 ≤ Net.maxCStack) (hargs : ∀ v ∈ args, v ≠ .nil) {i : ℕ}
    (hi : m.tables.getD i [] = received φ t) :
    arguments I (.ref (.table i)) m = .ok (args.map (Box.decode φ)) m := by
  have hlength := ht.eq_length φ hfits hargs (I.interpreter.isLength (received φ t))
  refine arguments_table ?_
  rw [hi, Net.unpackTable_of_fits I.interpreter (ht.rawget_n φ) (by rw [hlength]; exact hfits),
    hlength]
  refine congrArg Except.ok (List.ext_getElem (by simp) (fun k hk _ => ?_))
  have hlt : k < args.length := by simpa using hk
  rw [List.getElem_map, List.getElem_range, ht.rawget_position φ (by omega)]
  simp [List.getElem?_eq_getElem hlt]

/-- **The table of a call is dispatched** to the method of the entity, with the
player of the worker and the arguments. -/
theorem dispatch_of_isCall {α : Type} {t : Table α} {a : α} {name : Bytes}
    {args : List (Value α)} (ht : IsCall t (.ref a) name args) {φ : α → Point Obj} {e : ℕ}
    (hφ : φ a = .object (.entity e)) (hfits : (args.length : ℤ) + 3 ≤ Net.maxCStack)
    (hargs : ∀ v ∈ args, v ≠ .nil) {i : ℕ}
    (hi : m.tables.getD i [] = received φ t) (w : ℕ) :
    dispatch I (.ref (.table i)) w m = callMethod I (.ref (.object (.entity e))) (.string name)
      (m.world.workers w).player (args.map (Box.decode φ)) m := by
  have hself : Box.rawget (m.tables.getD i []) (.string (bytes "self"))
      = .ref (.object (.entity e)) := by
    rw [hi, ht.rawget_self φ, ← hφ]
    rfl
  have hmethod : Box.rawget (m.tables.getD i []) (.string (bytes "method")) = .string name := by
    rw [hi, ht.rawget_method φ]
  rw [dispatch, Run.bind_of_ok (index_table i _), Run.bind_of_ok (index_table i _), hself, hmethod]
  show (arguments I (.ref (.table i)) >>= _) m = _
  rw [Run.bind_of_ok (arguments_of_isCall ht φ hfits hargs hi), Run.get_bind]

/-- A frame is decoded, logged and dispatched. -/
theorem receive_body (w : ℕ) (buf : Bytes) :
    receive I w ⟨some (decimal buf.length), some buf⟩ m
      = (decode I buf >>= fun msg => logMessage msg >>= fun _ => dispatch I msg w) m := by
  rw [receive, Run.bind_of_ok (Run.assertSome_some _ _ _)]
  show (Run.assertSome (Number.tonumber (decimal buf.length)) _ >>= _) _ = _
  rw [Number.tonumber_decimal, Run.bind_of_ok (Run.assertSome_some _ _ _),
    Run.bind_of_ok (Run.assertSome_some _ _ _)]

/-- What a handler leaves of the server does not depend on the tables. -/
theorem leaves_onServer {β : Type} {x : Handler (Point Obj) β}
    {s' : State (Point Obj)} :
    (∃ m', (onServer x).Leaves m m' ∧ m'.world = s') ↔ x.Leaves m.world s' := by
  constructor
  · rintro ⟨m', hl, rfl⟩
    rcases hx : x m.world with ⟨b, t⟩ | ⟨e, t⟩ | _
    · have hrun : onServer x m = .ok b { m with world := t } := by
        rw [onServer, hx]
      rw [hl.of_ok hrun]
      exact Or.inl ⟨b, hx⟩
    · have hrun : onServer x m = .error e { m with world := t } := by
        rw [onServer, hx]
      rw [hl.of_error hrun]
      exact Or.inr ⟨e, hx⟩
    · have hrun : onServer x m = .timeout := by
        rw [onServer, hx]
      rcases hl with ⟨b, hb⟩ | ⟨e, he⟩
      · cases hrun.symm.trans hb
      · cases hrun.symm.trans he
  · rintro (⟨b, hb⟩ | ⟨e, he⟩)
    · exact ⟨{ m with world := s' }, Or.inl ⟨b, by rw [onServer, hb]⟩, rfl⟩
    · exact ⟨{ m with world := s' }, Or.inr ⟨e, by rw [onServer, he]⟩, rfl⟩

/-- An error may be caught by the server as well. -/
theorem onServer_xpcall {β γ : Type} (x : Handler (Point Obj) β)
    (handler : ServerError → Handler (Point Obj) γ) :
    Run.xpcall (onServer x) (fun e => onServer (handler e)) m
      = onServer (Run.xpcall x handler) m := by
  simp only [Run.xpcall, onServer]
  rcases hx : x m.world with ⟨b, t⟩ | ⟨e, t⟩ | _
  · rfl
  · rcases hh : handler e t with ⟨b, t'⟩ | ⟨e', t'⟩ | _ <;> simp only [hh]
  · rfl

end Receive

end Server

end Felt
