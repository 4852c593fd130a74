import Felt.Box.Flat
import Felt.Client.Requests
import Felt.Net.Framing
import Felt.Server.Hearing

/-!
# From a click to what the server does

What a client asks for is a table: the mirror that was clicked on, the name of
a method, and where. `box.pack` writes the mirror as its id, whatever was packed
before, and `receiveOne` looks the id up when it unpacks the table.

`does_of_click` says that what the server does when it receives these bytes is
what a request does in a room: `Request.deed`, which says nothing of tables and
texts. The methods of the entities are an assumption on the installation, as
`Installation` leaves them open.

The way goes through four modules that know nothing of each other. The table is
flat (`Felt.Box.Flat`), so its text is known; the text has no NUL in it, so its
frame carries it (`Felt.Net.Socket`); the table that arrives is that of a call,
whose arguments are those that were given (`Felt.Net.Call`); and the method that
is called is one of `act`. A coordinate is read back with as many digits as a
message has for it, and the deed is the one with the coordinates as they are
then.
-/

namespace Felt

open Box (Point)

open Net (IsCall position received)

namespace Number

/-- There is no NUL in the text of a number. -/
theorem zero_not_mem_tostring (n : Number) : 0 ∉ tostring n := by
  cases n with
  | nan s => cases s <;> decide
  | inf s => cases s <;> decide
  | fin q =>
    rw [tostring, List.mem_append, not_or]
    refine ⟨?_, fun h => ?_⟩
    · split_ifs
      · decide
      · exact List.not_mem_nil
    · exact (of_isNumeralByte (isNumeralByte_of_mem (isNumeral_general (abs_nonneg q)) 0 h)).2.1 rfl

end Number

namespace Client

open Server (Obj Method Machine Installation Deed Policy act)

/-! ## What a client sends -/

/-- **What a request is made of**: the table itself, and mirrors, with their
ids. -/
inductive Node where
  /-- The table. -/
  | message
  /-- A mirror, and its id. -/
  | mirror (a id : ℕ)
  deriving DecidableEq

/-- `self.id`, of a mirror. -/
def Node.ident : Node → ℕ
  | .message => 0
  | .mirror _ id => id

/-- **A request as a client makes it**: the table that `send` makes, in
whatever order it is enumerated, and what its number is when it is written and
read back. -/
structure Click where
  /-- What is asked for. -/
  request : Request
  /-- The id of the mirror. -/
  id : ℕ
  /-- The name of the method. -/
  name : Bytes
  /-- Where the pointer is. -/
  x : Number
  /-- Where the pointer is. -/
  y : Number
  /-- The message. -/
  table : Table Node
  /-- The name is that of the method. -/
  method : Method.ofName name = some request.method
  /-- The message is a call. -/
  isCall : IsCall table (.ref (.mirror request.mirror id)) name [.number x, .number y]
  /-- What a text says of `x`. -/
  reread_x : x.reread = .fin request.x
  /-- What a text says of `y`. -/
  reread_y : y.reread = .fin request.y

namespace Click

variable (c : Click)

/-- What `box.pack` sees: the table, and mirrors, whose `__pack` is
`objs[self] = self.id; return "pack", self`. -/
def graph : Graph Node
  | .message => .table c.table
  | .mirror a id => .object (.pack (some id) (.ref (.mirror a id)))

/-- What is written for it. -/
def text : Bytes := Box.withToc (bytes "T") (c.table.elements.map (Box.flatText Node.ident))

variable {c}

/-- The name of a method is no key of the encoder's, and has no NUL. -/
theorem name_cases : c.name ∈ [bytes "pickup", bytes "drop", bytes "takeItem", bytes "open"] := by
  have h := c.method
  unfold Method.ofName at h
  split_ifs at h <;> simp [*]

/-- **The elements of the table** are strings, numbers and the mirror. -/
theorem mem_elements {v : Value Node} (hv : v ∈ c.table.elements) :
    v ∈ [.string (bytes "self"), .string (bytes "method"), .string c.name, position 0, position 1,
      .number c.x, .number c.y, .ref (.mirror c.request.mirror c.id)] := by
  obtain ⟨p, hp, hvp⟩ := List.mem_flatMap.mp hv
  obtain ⟨-, hself | hmethod | ⟨i, hi, hget⟩⟩ := (c.isCall.mem p.1 p.2).mp hp
  · rcases List.mem_pair.mp hvp with rfl | rfl
    · rw [hself.1]
      simp
    · rw [hself.2]
      simp
  · rcases List.mem_pair.mp hvp with rfl | rfl
    · rw [hmethod.1]
      simp
    · rw [hmethod.2]
      simp
  · have hlt : i < 2 := (List.getElem?_eq_some_iff.mp hget).1
    rcases List.mem_pair.mp hvp with rfl | rfl
    · rw [hi]
      interval_cases i <;> simp
    · interval_cases i
      · rw [← show Value.number c.x = p.2 from Option.some.inj hget]
        simp
      · rw [← show Value.number c.y = p.2 from Option.some.inj hget]
        simp

theorem eq_of_ref {n : Node} (hn : .ref n ∈ c.table.elements) :
    n = .mirror c.request.mirror c.id := by
  have h := mem_elements hn
  simpa [position] using h

/-- **The table is flat.** -/
theorem isFlat : ∀ v ∈ c.table.elements, Box.IsFlat c.graph Node.ident .message v := by
  intro v hv
  have hname : c.name ≠ bytes "n" := fun h => by
    have hmem := name_cases (c := c)
    rw [h] at hmem
    revert hmem
    decide
  have hstring : ∀ s, s ≠ bytes "n" → Box.IsFlat c.graph Node.ident .message (.string s) :=
    fun s hs => ⟨fun h => hs (Value.string.inj h), Option.some_ne_none _⟩
  have hnumber : ∀ n, Box.IsFlat c.graph Node.ident .message (.number n) :=
    fun n => ⟨fun h => (by cases h), Option.some_ne_none _⟩
  have h := mem_elements hv
  simp only [List.mem_cons, List.not_mem_nil, or_false] at h
  rcases h with rfl | rfl | rfl | rfl | rfl | rfl | rfl | rfl
  · exact hstring _ (by decide)
  · exact hstring _ (by decide)
  · exact hstring _ hname
  · exact hnumber _
  · exact hnumber _
  · exact hnumber _
  · exact hnumber _
  · exact ⟨Node.noConfusion, rfl⟩

/-- **There is no NUL in it**, so that its frame carries it whole. -/
theorem whole : Net.Whole c.text := by
  have hdigits : ∀ n : ℕ, (0 : UInt8) ∉ decimal n := Net.not_mem_decimal rfl
  have helement : ∀ v ∈ c.table.elements, (0 : UInt8) ∉ Box.flatText Node.ident v := by
    intro v hv
    have hnumber : ∀ n : Number, (0 : UInt8) ∉ Box.flatText Node.ident (.number n) :=
      fun n hn => by
        rcases List.mem_cons.mp hn with hzero | hmem
        · exact absurd hzero (by decide)
        · exact Number.zero_not_mem_tostring n hmem
    have h := mem_elements hv
    simp only [List.mem_cons, List.not_mem_nil, or_false] at h
    rcases h with rfl | rfl | rfl | rfl | rfl | rfl | rfl | rfl
    · show (0 : UInt8) ∉ 83 :: bytes "self"
      decide
    · show (0 : UInt8) ∉ 83 :: bytes "method"
      decide
    · show (0 : UInt8) ∉ 83 :: c.name
      have hname := name_cases (c := c)
      simp only [List.mem_cons, List.not_mem_nil, or_false] at hname
      rcases hname with h | h | h | h <;> rw [h] <;> decide
    · exact hnumber _
    · exact hnumber _
    · exact hnumber _
    · exact hnumber _
    · intro hn
      rcases List.mem_cons.mp hn with hzero | hmem
      · exact absurd hzero (by decide)
      · exact hdigits _ hmem
  refine Or.inr (fun h => ?_)
  unfold text Box.withToc Box.maketoc at h
  simp only [List.mem_append, List.mem_flatMap, List.mem_flatten, List.mem_map,
    List.mem_singleton] at h
  rcases h with (hT | (hlen | hcolon) | ⟨t, -, hlen | hcolon⟩) | ⟨_, ⟨v, hv, rfl⟩, hmem⟩
  · exact absurd hT (by decide)
  · exact hdigits _ hlen
  · exact absurd hcolon (by decide)
  · exact hdigits _ hlen
  · exact absurd hcolon (by decide)
  · exact helement v hv hmem

/-- There are eight elements. -/
theorem length_elements : c.table.elements.length ≤ 8 := c.isCall.length_elements

end Click

/-! ## What the server does -/

section Does

variable {I : Installation} {fuel : ℕ} {m : Machine} {c : Click}

/-- `server.game().objects[id]`, for a whole number. -/
theorem entry_natCast (n : ℕ) : I.receiver.entry m.world n = m.world.game.objects.get n := by
  show (if ((n : ℕ) : ℚ).den = 1 ∧ 0 ≤ ((n : ℕ) : ℚ).num
    then m.world.game.objects.get ((n : ℕ) : ℚ).num.toNat else none) = _
  rw [if_pos ⟨Rat.den_natCast _, by rw [Rat.num_natCast]; exact Int.natCast_nonneg _⟩,
    Rat.num_natCast, Int.toNat_natCast]

/-- **A request for something the server has** arrives as a table. -/
theorem decode_click (hI : I.Shipped fuel) {o : Obj} (ho : m.world.game.objects.get c.id = some o) :
    Server.decode I c.text m = .ok (.ref (.table m.tables.length))
      { m with tables := m.tables ++ [received (fun _ => .object o) c.table] } := by
  obtain ⟨depth, hdepth⟩ : ∃ depth, I.fuel = depth + 2 := ⟨I.fuel - 2, by have := hI.depth; omega⟩
  have hentry : I.receiver.entry m.world c.id = some o := (entry_natCast c.id).trans ho
  obtain ⟨ust, hust, hstore⟩ := Box.unpack_flat (R := I.receiver) (φ := fun _ => o) (s := m)
    Click.isFlat (fun n hn => by rw [Click.eq_of_ref hn]; exact hentry)
    (c.length_elements.trans (by have := hI.depth; omega) : _ ≤ depth)
  unfold Server.decode
  rw [hI.arith, hdepth, Click.text, hust]
  exact congrArg (Outcome.ok _) hstore

/-- A request for something the server has not is not unpacked. -/
theorem decode_click_error (hI : I.Shipped fuel) (hnone : m.world.game.objects.get c.id = none) :
    ∃ e m', Server.decode I c.text m = .error e m' ∧ m'.world = m.world := by
  obtain ⟨depth, hdepth⟩ : ∃ depth, I.fuel = depth + 2 := ⟨I.fuel - 2, by have := hI.depth; omega⟩
  have hentry : I.receiver.entry m.world c.id = none := (entry_natCast c.id).trans hnone
  have hmem : .ref (.mirror c.request.mirror c.id) ∈ c.table.elements := by
    refine List.mem_flatMap.mpr ⟨(.string (bytes "self"), .ref (.mirror c.request.mirror c.id)),
      (c.isCall.mem _ _).mpr ⟨fun h => (by cases h), Or.inl ⟨rfl, rfl⟩⟩, by simp⟩
  obtain ⟨e, ust, hust, hworld⟩ := Box.unpack_flat_error (R := I.receiver) (s := m)
    (Option.some_ne_none _) Click.isFlat hmem hentry
    (c.length_elements.trans (by have := hI.depth; omega) : _ ≤ depth)
  refine ⟨.box e, ust.store, ?_, hworld⟩
  unfold Server.decode
  rw [hI.arith, hdepth, Click.text, hust]

/-- **A request for an entity** is dispatched to its method. -/
theorem receive_click (hI : I.Shipped fuel) {e : ℕ}
    (he : m.world.game.objects.get c.id = some (.entity e)) (w : ℕ) :
    ∃ f, I.method (.entity e) (.string c.name) = some f
      ∧ (∀ who g, act I.site.length (fuel + 1) e c.request.method who (some c.request.x)
          (some c.request.y) g ≠ .timeout →
        Server.runMethod (f who [.number (.fin c.request.x), .number (.fin c.request.y)]) g
          = act I.site.length (fuel + 1) e c.request.method who (some c.request.x)
            (some c.request.y) g)
      ∧ Server.receive I w ⟨some (decimal c.text.length), some c.text⟩ m
        = Server.onServer (Server.onGame (Server.runMethod (f (m.world.workers w).player
            [.number (.fin c.request.x), .number (.fin c.request.y)])))
          { m with tables := m.tables ++ [received (fun _ => .object (.entity e)) c.table] } := by
  obtain ⟨f, hf, hact⟩ := hI.method e c.name c.request.method c.method
  refine ⟨f, hf, fun who g => hact who c.request.x c.request.y g, ?_⟩
  rw [Server.receive_body, Run.bind_of_ok (decode_click hI he)]
  show Server.dispatch I (.ref (.table m.tables.length)) w _ = _
  rw [Server.dispatch_of_isCall c.isCall (e := e) rfl (by simp [Net.maxCStack]) (by simp)
    (by rw [List.getD_eq_getElem?_getD, List.getElem?_concat_length, Option.getD_some]) w]
  have hargs : [Value.number c.x, .number c.y].map
        (Box.decode (fun _ : Node => Point.object (Obj.entity e)))
      = [.number (.fin c.request.x), .number (.fin c.request.y)] := by
    rw [← c.reread_x, ← c.reread_y]
    rfl
  rw [hargs]
  simp only [Server.callMethod, hf]

/-- **What the server does with a frame** is what a request does in a room. -/
theorem leaves_receiveOne (hI : I.Shipped fuel)
    (hmanned : Server.Manned Policy.shipped m.world) {w : ℕ} {d : Deed}
    (hd : c.request.deed w c.id m.world.game = some d) (s' : Server.State (Point Obj)) :
    (∃ m', (Server.receiveOne I w ⟨some (decimal c.text.length), some c.text⟩).Leaves m m'
        ∧ m'.world = s')
      ↔ (d.handler I.site fuel).Leaves m.world s' := by
  rcases ho : m.world.game.objects.get c.id with _ | o
  · -- the id is not found, and the worker disconnects
    obtain rfl : Deed.session (.disconnect w) = d := by
      rw [Request.deed, ho] at hd
      exact Option.some.inj hd
    obtain ⟨e, m₁, hdecode, hworld⟩ := decode_click_error hI ho
    have hreceive : Server.receive I w ⟨some (decimal c.text.length), some c.text⟩ m
        = .error e m₁ := by
      rw [Server.receive_body, Run.bind_of_error hdecode]
    rw [← hworld]
    refine Iff.trans ?_ (Server.leaves_onServer (m := m₁) (x := Server.disconnect w))
    exact exists_congr (fun m' => and_congr_left' (Run.leaves_xpcall_error hreceive))
  cases o with
  | game =>
    rw [Request.deed, ho] at hd
    cases hd
  | player p =>
    rw [Request.deed, ho] at hd
    cases hd
  | entity e =>
    obtain rfl : Deed.act w e c.request.method (some c.request.x) (some c.request.y) = d := by
      rw [Request.deed, ho] at hd
      exact Option.some.inj hd
    obtain ⟨f, hf, hact, hreceive⟩ := receive_click hI ho w
    have hends := Server.act_ends (P := Policy.shipped) (L := I.site.length)
      (Server.hosts_of_below rfl) hmanned.sound ⟨c.id, ho⟩
      (⟨hmanned.staff w, fun _ _ => trivial⟩ :
        Server.Asker Policy.shipped m.world.game (m.world.workers w).player)
      (Server.may_shipped (S := I.site)
        (.act w e c.request.method (some c.request.x) (some c.request.y)) m.world).1 fuel
      (some c.request.x) (some c.request.y)
    have hgame : Server.runMethod (f (m.world.workers w).player
          [.number (.fin c.request.x), .number (.fin c.request.y)]) m.world.game
        = act I.site.length (fuel + 1) e c.request.method (m.world.workers w).player
            (some c.request.x) (some c.request.y) m.world.game := by
      refine hact _ _ (fun htimeout => ?_)
      rcases hends with ⟨_, g, hg, -⟩ | ⟨_, g, hg, -⟩
      · cases hg.symm.trans htimeout
      · cases hg.symm.trans htimeout
    -- the tables are all that is different
    set m₁ : Machine :=
      { m with tables := m.tables ++ [received (fun _ => .object (.entity e)) c.table] } with hm₁
    have hone : Server.receiveOne I w ⟨some (decimal c.text.length), some c.text⟩ m
        = Server.onServer ((Deed.act w e c.request.method (some c.request.x)
            (some c.request.y)).handler I.site fuel) m₁ := by
      have hcatch : Server.receiveOne I w ⟨some (decimal c.text.length), some c.text⟩ m
          = Run.xpcall (Server.onServer (Server.onGame (Server.runMethod
              (f (m.world.workers w).player
                [.number (.fin c.request.x), .number (.fin c.request.y)]))))
            (fun _ => Server.onServer (Server.disconnect w)) m₁ := by
        unfold Server.receiveOne Run.xpcall
        rw [hreceive]
      rw [hcatch, Server.onServer_xpcall]
      unfold Server.onServer Server.onGame Run.xpcall
      dsimp only
      rw [show m₁.world = m.world from rfl, hgame]
      rfl
    refine Iff.trans ?_ (Server.leaves_onServer (m := m₁))
    unfold Run.Leaves
    rw [hone]

/-- What is written for a request, whatever was written before. -/
theorem pack_click {objs : Node → Option ℕ} (hobjs : Box.Records Node.ident .message objs) :
    ∃ st objs', Box.pack c.graph (some objs) 3 (.ref .message) = .ok c.text st
      ∧ st.objs = some objs' ∧ Box.Records Node.ident .message objs' := by
  obtain ⟨st, hpack, hwithin⟩ := Box.pack_flat (G := c.graph) rfl Click.isFlat hobjs 0
  obtain ⟨objs', hst, hobjs'⟩ := hwithin.objs
  exact ⟨st, objs', hpack, hst, hobjs'⟩

/-- **From a click to what the server does.** In every state that a run of the
server reaches, and whatever the client has packed before: a request is packed,
its frame carries it whole, and when `receiveOne` reads it, the server does what
a request does in a room – it calls the method of the entity under the id, or
disconnects if there is nothing. -/
theorem does_of_click (I : Installation) (fuel : ℕ) (hI : I.Shipped fuel) (games : List Bytes)
    (m : Machine)
    (hm : Server.Played I.site fuel (fun _ _ => True) (Server.State.opening I.site games) m.world)
    (w : ℕ) (c : Click) (d : Deed) (hd : c.request.deed w c.id m.world.game = some d)
    (objs : Node → Option ℕ) (hobjs : Box.Records Node.ident .message objs) :
    ∃ buf st objs', Box.pack c.graph (some objs) 3 (.ref .message) = .ok buf st
      ∧ st.objs = some objs' ∧ Box.Records Node.ident .message objs' ∧ Net.Whole buf
      ∧ ∀ s', (∃ m', (Server.receiveOne I w ⟨some (decimal buf.length), some buf⟩).Leaves m m'
          ∧ m'.world = s')
        ↔ (d.handler I.site fuel).Leaves m.world s' := by
  obtain ⟨st, objs', hpack, hst, hobjs'⟩ := pack_click (c := c) hobjs
  exact ⟨c.text, st, objs', hpack, hst, hobjs', Click.whole,
    leaves_receiveOne hI (Server.manned_of_played hm) hd⟩

/-- A client asks for the box under the id 2 to be opened. -/
def Click.openBox (a : ℕ) : Click where
  request := ⟨a, .openBox, 0, 0⟩
  id := 2
  name := bytes "open"
  x := .fin 0
  y := .fin 0
  table := Net.callTable (.ref (.mirror a 2)) (bytes "open") [.number (.fin 0), .number (.fin 0)]
  method := rfl
  isCall := Net.isCall_callTable _ _ _ (Or.inr ⟨_, rfl⟩) (by simp)
  reread_x := (by decide +kernel : (Number.fin 0).reread = .fin 0)
  reread_y := (by decide +kernel : (Number.fin 0).reread = .fin 0)

/-- Somebody logs in, and asks for the go box to be opened. -/
theorem does_of_click_box : ∃ (m : Machine) (buf : Bytes), m.world.Registered 0
    ∧ ∀ s', (∃ m', (Server.receiveOne (.standard .plain 5) 0
          ⟨some (decimal buf.length), some buf⟩).Leaves m m' ∧ m'.world = s')
        ↔ ((Deed.act 0 1 .openBox (some 0) (some 0)).handler .plain 5).Leaves m.world s' := by
  obtain ⟨s, hs, hw, hbox⟩ := Server.exists_played (fun _ _ => True) .plain 5
    (Server.State.opening .plain [bytes "go"])
    [.session (.connect 0 (some [])),
      .session (.login 0 (.string (bytes "a")) .nil .nil .nil .nil)]
    (Q := fun s => s.Registered 0 ∧ s.game.objects.get 2 = some (.entity 1)) (by decide +kernel)
  have hd : (Click.openBox 0).request.deed 0 (Click.openBox 0).id s.game
      = some (.act 0 1 .openBox (some 0) (some 0)) := by
    show Request.deed _ 0 2 s.game = _
    rw [Request.deed, hbox]
    rfl
  obtain ⟨buf, -, -, -, -, -, -, hdoes⟩ := does_of_click (.standard .plain 5) 5
    (Server.shipped_standard .plain 5) [bytes "go"] ⟨[], s⟩ hs 0 (Click.openBox 0) _ hd
    (fun _ => none) ⟨rfl, fun _ _ h => by cases h⟩
  exact ⟨⟨[], s⟩, buf, hw, hdoes⟩

end Does

end Client

end Felt
