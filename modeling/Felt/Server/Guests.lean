import Felt.Box.Inert
import Felt.Server.Play
import Felt.Server.Survival

/-!
# What a guest can do to the game

The password is checked by `server.api.login`, and by nothing else. A frame
that comes in on a connection that has not logged in is decoded and dispatched
like any other, and there are two doors from there to the game: `box.unpack`
loads the module of every value of tag `C`, and `server.dispatch` calls any
method of any object that has an id – with `nil` for the player.

Whether a frame comes near one of the doors can be seen from its bytes and the
ids there are (`Harmless`): there is no value of tag `C` in it, and no id of an
object under `self`. Whatever else a guest sends – a login that is refused, a
chat message, a request for a method of a string or of nothing, a text that
cannot be decoded – leaves the game as it is, and so does the end of the
connection: a run of such frames leaves it alone (`unmoved_of_guests`). With
the doors open it does not: opening a game box is enough.

A method that a class was given by `ACTION` is reached through the same door,
as a method of an object under `self`. It may change more of an entity than the
model has; where the door is shut nothing is written to any entity.
-/

namespace Felt

namespace Server

open Box (Point)

variable {I : Installation} {w : ℕ}

/-! ## The game -/

/-- **Two games are the same**, to whoever plays them: what is queued of one
of them does not matter. -/
structure SameGame (g g' : Game (Point Obj)) : Prop where
  /-- The same objects have the same ids. -/
  objects : g'.objects = g.objects
  /-- The same players are known. -/
  players : g'.players = g.players
  /-- The same fields are. -/
  fields : g'.fields = g.fields
  /-- Every entity has the fields, the parent and the children it had. -/
  entities : g'.entities = g.entities
  /-- Every player has the fields they had. -/
  people : g'.people = g.people

namespace SameGame

variable {g g' g'' : Game (Point Obj)}

theorem refl (g : Game (Point Obj)) : SameGame g g := ⟨rfl, rfl, rfl, rfl, rfl⟩

theorem symm (h : SameGame g g') : SameGame g' g :=
  ⟨h.objects.symm, h.players.symm, h.fields.symm, h.entities.symm, h.people.symm⟩

theorem trans (h : SameGame g g') (h' : SameGame g' g'') : SameGame g g'' :=
  ⟨h'.objects.trans h.objects, h'.players.trans h.players, h'.fields.trans h.fields,
    h'.entities.trans h.entities, h'.people.trans h.people⟩

end SameGame

/-- **`w` is a guest, and the game is the same as `G`.** -/
structure Outside (w : ℕ) (G : Game (Point Obj)) (s : State (Point Obj)) : Prop where
  /-- `w` has no player. -/
  guest : (s.workers w).player = none
  /-- The game is the same. -/
  same : SameGame G s.game

/-- Either that, or `w` is no guest any more. -/
def Settled (w : ℕ) (G : Game (Point Obj)) (s : State (Point Obj)) : Prop :=
  (s.workers w).player = none → SameGame G s.game

/-! ## The server's own functions -/

section Handlers

variable {s : State (Point Obj)} {G : Game (Point Obj)}

theorem Outside.settled (h : Outside w G s) : Settled w G s := fun _ => h.same

/-- A guest who is disconnected takes nothing with them. -/
theorem disconnect_guest (h : Outside w G s) :
    Run.Ends (disconnect w) s (fun _ s' => Outside w G s') (fun _ s' => Outside w G s') := by
  rcases hname : s.players.get (s.workers w).name with _ | v
  · exact Or.inl ⟨(), _, unregister_guest hname, h.guest, h.same⟩
  · exact Or.inr ⟨_, _, unregister_error hname h.guest, h.guest, h.same⟩

/-- What is broadcast is no part of the game. -/
theorem Outside.settle (h : Outside w G s) {g : Game (Point Obj)} (hg : SameGame G g) :
    Outside w G (s.settle g) where
  guest := ((SameTables.settle s g).player w).trans h.guest
  same := hg.trans ⟨rfl, rfl, rfl, rfl, rfl⟩

/-- **A login that succeeds makes a player of the guest**, and one that does
not leaves the game alone. -/
theorem login_guest (S : Site) (name pass r g b : Value (Point Obj)) (h : Outside w G s) :
    Run.Ends (login S w name pass r g b) s (fun _ s' => Settled w G s')
      (fun _ s' => Outside w G s') := by
  have hdisc : Run.Ends (disconnect w) s (fun _ s' => Settled w G s')
      (fun _ s' => Outside w G s') :=
    (disconnect_guest h).weaken (fun _ _ h' => h'.settled) (fun _ _ h' => h')
  refine Run.Ends.get_bind ?_
  cases name with
  | string name =>
    show Run.Ends (if S.refuses pass then _
      else if (s.players.get name).isSome then _ else _) s _ _
    split
    · exact hdisc
    · split
      · exact hdisc
      -- past the checks the guest gets a player, so that nothing is claimed any more
      · refine Run.Ends.of_returns ?_
        obtain ⟨p, g', hg, -⟩ := addPlayer_returns S.length name r g b s.game
        refine ⟨(), _, welcome_apply S hg w, fun hguest => ?_⟩
        rw [welcomed_player, if_pos rfl] at hguest
        cases hguest
  | _ => exact hdisc

theorem chat_guest (text : Value (Point Obj)) (h : Outside w G s) :
    Run.Ends (chat w text) s (fun _ s' => Settled w G s') (fun _ s' => Outside w G s') := by
  have hsame : SameGame G (s.game.say (fun _ => .chat (s.workers w).name text)) :=
    h.same.trans ⟨rfl, rfl, rfl, rfl, rfl⟩
  exact Or.inl ⟨(), _, rfl, (h.settle hsame).settled⟩

end Handlers

/-! ## The two doors -/

/-- **A frame that does no harm**: no value in it makes `box.unpack` load a
module, and what it has under `self` is not the id of an object. -/
structure Harmless (I : Installation) (buf : Bytes) (s : State (Point Obj)) : Prop where
  /-- There is no value of tag `C`. -/
  inert : Box.Inert I.arith buf
  /-- There is no object under `self`. -/
  self : ∀ n, Box.StandsBehind I.arith buf (bytes "self") (79 :: n) →
    I.receiver.named I.arith s n = none

/-- **`w` is a guest** while a frame of theirs is handled: nobody has logged
in on the connection, and nobody does with it. -/
structure Guest (I : Installation) (w : ℕ) (rec : Reception) (m : Machine) : Prop where
  /-- Nobody has logged in before. -/
  before : (m.world.workers w).player = none
  /-- Nobody has logged in after. -/
  after : ∀ m', receiveOne I w rec m = .ok () m' → (m'.world.workers w).player = none

/-! ## One frame -/

section Frame

variable {m : Machine} {G : Game (Point Obj)}

/-- A message has an object of the game under `self`. -/
def Aims (v : Datum) (m : Machine) : Prop :=
  ∃ i o, v = .ref (.table i)
    ∧ Box.rawget (m.tables.getD i []) (.string (bytes "self")) = .ref (.object o)

/-- **A frame that does no harm is decoded** without a change of the server,
and no object stands under `self`. -/
theorem decode_harmless {buf : Bytes} (h : Harmless I buf m.world) :
    Run.Triple (· = m) (decode I buf) (fun v m' => m'.world = m.world ∧ ¬Aims v m')
      (fun _ m' => m'.world = m.world) := by
  intro m₀ hm₀
  obtain rfl := Eq.symm hm₀
  have hunpack : Run.Triple _ (Box.doUnpack I.arith I.receiver I.fuel buf) _ _ :=
    Box.unpack_inert h.inert m
  unfold decode Box.unpack
  rcases hx : Box.doUnpack I.arith I.receiver I.fuel buf ⟨[], m, []⟩ with ⟨v, st⟩ | ⟨e, st⟩ | _
  · obtain ⟨hworld, hobject⟩ := hunpack.ok rfl hx
    refine ⟨hworld, fun ⟨i, o, hv, ho⟩ => ?_⟩
    obtain ⟨n, hn, hnamed⟩ := hobject i _ o hv ho
    rw [h.self n hn] at hnamed
    cases hnamed
  · exact hunpack.error rfl hx
  · trivial

/-- The arguments are read before anything is called. -/
theorem arguments_guest (v : Datum) (h : Outside w G m.world) :
    Run.Ends (arguments I v) m (fun _ m' => m' = m) (fun _ m' => Outside w G m'.world) :=
  (arguments_ends v).weaken (fun _ _ hm => hm) (fun _ _ hm => hm ▸ h)

theorem callApi_guest (method v : Datum) (h : Outside w G m.world) :
    Run.Ends (callApi I method w v) m (fun _ m' => Settled w G m'.world)
      (fun _ m' => Outside w G m'.world) := by
  unfold callApi
  split
  · refine (arguments_guest v h).bind (fun args m' hm => ?_)
    subst hm
    exact onServer_ends (login_guest _ _ _ _ _ _ h)
  · split
    · refine (arguments_guest v h).bind (fun args m' hm => ?_)
      subst hm
      exact onServer_ends (chat_guest _ h)
    · exact Run.Ends.throw h

/-- What is called is no method of an object. -/
theorem callMethod_guest {self : Datum} (hself : ∀ o, self ≠ .ref (.object o)) (method : Datum)
    (who : Option ℕ) (args : List Datum) (h : Outside w G m.world) :
    Run.Ends (callMethod I self method who args) m (fun _ m' => Settled w G m'.world)
      (fun _ m' => Outside w G m'.world) := by
  unfold callMethod
  split
  · exact absurd rfl (hself _)
  · exact Run.Ends.throw h
  · split
    · next s _ f _ =>
      rcases hf : f s args with e | _
      · exact Run.Ends.throw h
      · exact Run.Ends.pure h.settled
    · exact Run.Ends.throw h
  · exact Run.Ends.throw h

/-- The fields of a table can be read, and what is under `self` is no object
if the message does not aim at one. -/
theorem index_self {a : Point Obj} (h : ¬Aims (.ref a) m) :
    ∃ x, index (.ref a) (.string (bytes "self")) m = .ok x m ∧ ∀ o, x ≠ .ref (.object o) := by
  cases a with
  | table i => exact ⟨_, rfl, fun o ho => h ⟨i, o, rfl, ho⟩⟩
  | object o => exact ⟨.nil, rfl, nofun⟩

/-- **What is done with a message that aims at no object** leaves the game
alone. -/
theorem dispatch_guest (v : Datum) (hv : ¬Aims v m) (h : Outside w G m.world) :
    Run.Ends (logMessage v >>= fun _ => dispatch I v w) m (fun _ m' => Settled w G m'.world)
      (fun _ m' => Outside w G m'.world) := by
  cases v with
  | ref a =>
    obtain ⟨x, hx, hself⟩ := index_self hv
    -- reading a field of a message changes nothing
    obtain ⟨y, hy⟩ : ∃ y, index (.ref a) (.string (bytes "method")) m = .ok y m := by
      cases a <;> exact ⟨_, rfl⟩
    have hdispatch : (logMessage (.ref a) >>= fun _ => dispatch I (.ref a) w) m
        = (if x.truthy then arguments I (.ref a) >>= fun args => Run.get >>= fun m' =>
            callMethod I x y (m'.world.workers w).player args
          else callApi I y w (.ref a)) m := by
      show (index _ _ >>= _) m = _
      rw [Run.bind_of_ok hx, Run.bind_of_ok hy]
    unfold Run.Ends
    rw [hdispatch]
    split
    · refine (arguments_guest _ h).bind (fun args m' hm => ?_)
      subst hm
      exact Run.Ends.get_bind (callMethod_guest hself y _ args h)
    · exact callApi_guest y _ h
  | _ => exact Run.Ends.throw h

/-- **A frame that does no harm leaves the game alone** until its error is
caught. -/
theorem receive_guest {rec : Reception}
    (hrec : ∀ buf, rec.body = some buf → Harmless I buf m.world) (h : Outside w G m.world) :
    Run.Triple (· = m) (receive I w rec) (fun _ m' => Settled w G m'.world)
      (fun _ m' => Outside w G m'.world) := by
  have hthrow : ∀ {m' : Machine}, m' = m → Outside w G m'.world := fun hm => hm ▸ h
  unfold receive
  refine Run.Triple.bind (M := fun _ m' => m' = m) (Run.Triple.assertSome (fun _ _ _ hm => hm)
    (fun _ _ hm => hthrow hm)) (fun header => ?_)
  refine Run.Triple.bind (M := fun _ m' => m' = m) (Run.Triple.assertSome (fun _ _ _ hm => hm)
    (fun _ _ hm => hthrow hm)) (fun _ => ?_)
  refine Run.Triple.bind (M := fun buf m' => m' = m ∧ Harmless I buf m.world)
    (Run.Triple.assertSome (fun buf hbuf _ hm => ⟨hm, hrec buf hbuf⟩) (fun _ _ hm => hthrow hm))
    (fun buf m₁ hm₁ => ?_)
  obtain ⟨rfl, hharmless⟩ := hm₁
  refine Run.Triple.bind (M := fun v m' => Outside w G m'.world ∧ ¬Aims v m')
    ((decode_harmless hharmless).weaken (fun _ hm => hm) (fun _ m' hm => ⟨hm.1 ▸ h, hm.2⟩)
      (fun _ _ hm => hm ▸ h)) (fun v => ?_) m₁ rfl
  exact Run.Ends.triple (fun m' hm' => dispatch_guest v hm'.2 hm'.1)

/-- **A frame of a guest that does no harm leaves the game alone.** -/
theorem receiveOne_guest {rec : Reception} (hguest : Guest I w rec m)
    (hrec : ∀ buf, rec.body = some buf → Harmless I buf m.world) {m' : Machine}
    (hm' : receiveOne I w rec m = .ok () m') : SameGame m.world.game m'.world.game := by
  have hsettled : Run.Triple (· = m) (receiveOne I w rec)
      (fun _ m' => Settled w m.world.game m'.world) (fun _ _ => True) :=
    Run.Triple.xpcall (receive_guest hrec ⟨hguest.before, .refl _⟩) (fun _ _ hs => hs)
      (fun _ => Run.Ends.triple (fun _ hout => (onServer_ends (disconnect_guest hout)).weaken
        (fun _ _ hs => hs.settled) (fun _ _ hs => hs.settled)))
  exact hsettled.ok rfl hm' (hguest.after m' hm')

end Frame

/-! ## Every frame -/

/-- **The frames leave the game alone**: it is the same after each of them as
before the first. -/
def Unmoved (I : Installation) (w : ℕ) (frames : List Reception) (m : Machine) : Prop :=
  ∀ k m', Run.forList (receiveOne I w) (frames.take k) m = .ok () m' →
    SameGame m.world.game m'.world.game

/-- **The frames of a connection nobody has logged in on leave the game
alone**, if each of them does no harm when it comes in. -/
theorem unmoved_of_guests (I : Installation) (w : ℕ) (frames : List Reception) (m : Machine)
    (hguest : AllAlong (receiveOne I w) (Guest I w) frames m)
    (hharmless : AllAlong (receiveOne I w)
      (fun rec m => ∀ buf, rec.body = some buf → Harmless I buf m.world) frames m) :
    Unmoved I w frames m := by
  induction frames generalizing m with
  | nil =>
    intro k m' hrun
    rw [List.take_nil] at hrun
    cases hrun
    exact .refl _
  | cons rec l ih =>
    obtain ⟨hrec, hrest⟩ := hguest
    obtain ⟨hone, hall⟩ := hharmless
    rintro (_ | k) m' hrun
    · cases hrun
      exact .refl _
    · obtain ⟨_, m₁, hfirst, hmore⟩ := Run.bind_eq_ok.mp hrun
      exact (receiveOne_guest hrec hone hfirst).trans
        (ih m₁ (hrest m₁ hfirst) (hall m₁ hfirst) k m' hmore)

/-! ## A server with a game box -/

/-- `open` of a game box, as it is called in a request. -/
def openMethod (L : Dict.Length Obj) (e : ℕ) (_ : Option ℕ) (_ : List Datum)
    (g : Game (Point Obj)) : Except GameError Unit × Game (Point Obj) :=
  match GameBox.openBox L e g with
  | .ok _ g' => (.ok (), g')
  | .error e' g' => (.error e', g')
  | .timeout => (.ok (), g)

/-- A server with a password, where entities can be opened and no module can
be loaded. -/
def Installation.boxes : Installation :=
  { Installation.bare with
    site := ⟨Dict.Length.first Obj, some (bytes "secret")⟩
    fuel := 20
    method := fun o method =>
      match o with
      | .entity e =>
        if method = .string (bytes "open") then some (openMethod (Dict.Length.first Obj) e)
        else none
      | _ => none }

/-- The go box is on the table, and somebody has connected. -/
def Machine.lobby : Machine :=
  ⟨[], { State.start (Game.start (Dict.Length.first Obj) [bytes "go"]) with
    sockets := [7]
    clients := Dict.empty.set 7 0
    workers := fun _ => Worker.guest 7 (bytes "10.0.0.1")
    nextWorker := 1 }⟩

/-- `{ self = box, method = "open" }`, as a client that does not log in sends
it: the id of the box is `2`. -/
def openFrame : Reception := ⟨some (bytes "30"), some (bytes "T4:5:2:7:5:SselfO2SmethodSopen")⟩

/-- Somebody is a guest while frames are handled after each of which they are
one. -/
theorem guests_of_returned {frames : List Reception} {m : Machine}
    (h : (m.world.workers 0).player = none)
    (hall : ∀ k < frames.length, ((returned (Run.forList (receiveOne Installation.boxes 0)
      (frames.take (k + 1))) m).map (fun m => (m.world.workers 0).player)) = some none) :
    AllAlong (receiveOne Installation.boxes 0) (Guest Installation.boxes 0) frames m := by
  induction frames generalizing m with
  | nil => trivial
  | cons rec l ih =>
    have hafter : ∀ m', receiveOne Installation.boxes 0 rec m = .ok () m' →
        (m'.world.workers 0).player = none := fun m' hm' => by
      have hone := hall 0 (Nat.succ_pos _)
      rw [returned_eq_some.mpr ⟨(), show Run.forList (receiveOne Installation.boxes 0)
        ((rec :: l).take 1) m = .ok () m' by
          rw [List.take_succ_cons, List.take_zero]
          exact (Run.bind_of_ok hm').trans rfl⟩] at hone
      exact Option.some.inj hone
    refine ⟨⟨h, hafter⟩, fun m' hm' => ih (hafter m' hm') (fun k hk => ?_)⟩
    -- the rest of the frames goes on from where the first has led
    have hmore := hall (k + 1) (Nat.succ_lt_succ hk)
    have hrun : returned (Run.forList (receiveOne Installation.boxes 0)
          ((rec :: l).take (k + 1 + 1))) m
        = returned (Run.forList (receiveOne Installation.boxes 0) (l.take (k + 1))) m' := by
      unfold returned
      rw [List.take_succ_cons, show Run.forList (receiveOne Installation.boxes 0)
        (rec :: l.take (k + 1)) m = _ from Run.bind_of_ok hm']
    rwa [hrun] at hmore

/-- `{ method = "chat"; "hi" }`. -/
def chatFrame : Reception :=
  ⟨some (bytes "28"), some (bytes "T4:7:5:2:3:SmethodSchatN1Shi")⟩

/-- `{ method = "login"; "eve", "guess" }`. -/
def guessFrame : Reception :=
  ⟨some (bytes "42"), some (bytes "T6:7:6:2:4:2:6:SmethodSloginN1SeveN2Sguess")⟩

/-- The elements of a message that is a table of strings and numbers can be
seen in its table of contents. -/
theorem harmless_of_elements (elements : List Bytes) {s : State (Point Obj)}
    (hleaf : ∀ x ∈ elements, x.head? ≠ some 84 ∧ x.head? ≠ some 67 ∧ x.head? ≠ some 79) :
    Harmless Installation.boxes (84 :: (Box.maketoc elements ++ elements.flatten)) s where
  inert := Box.inert_of_isToc (Arith.exact_ideal _) (Box.isToc_maketoc elements)
    (fun x hx => ⟨(hleaf x hx).1, (hleaf x hx).2.1⟩)
  self n hn := by
    obtain ⟨fuel, b, elements', j, hb, hread, -, hy⟩ := hn
    obtain rfl := (List.cons.inj hb).2
    obtain rfl := Box.eq_of_readtoc (Arith.exact_ideal _) (Box.isToc_maketoc elements) hread
    exact absurd rfl (hleaf _ (List.mem_of_getElem? hy)).2.2

/-- Somebody who does not know the password says something, and then guesses
it. -/
theorem unmoved_of_guess :
    (returned (Run.forList (receiveOne Installation.boxes 0) [chatFrame, guessFrame])
      Machine.lobby).isSome
    ∧ Unmoved Installation.boxes 0 [chatFrame, guessFrame] Machine.lobby := by
  have hchat : ∀ {s : State (Point Obj)} {buf : Bytes}, chatFrame.body = some buf →
      Harmless Installation.boxes buf s := fun hbuf => by
    obtain rfl := Option.some.inj hbuf
    exact harmless_of_elements [bytes "Smethod", bytes "Schat", bytes "N1", bytes "Shi"] (by decide)
  have hguess : ∀ {s : State (Point Obj)} {buf : Bytes}, guessFrame.body = some buf →
      Harmless Installation.boxes buf s := fun hbuf => by
    obtain rfl := Option.some.inj hbuf
    exact harmless_of_elements [bytes "Smethod", bytes "Slogin", bytes "N1", bytes "Seve",
      bytes "N2", bytes "Sguess"] (by decide)
  exact ⟨by decide +kernel, unmoved_of_guests Installation.boxes 0 [chatFrame, guessFrame]
    Machine.lobby (guests_of_returned rfl (by decide +kernel))
    ⟨fun _ => hchat, fun _ _ => ⟨fun _ => hguess, fun _ _ => trivial⟩⟩⟩

/-- **A guest opens the go box**, without the password: the game has the field
`Go` then. -/
theorem not_unmoved :
    ¬ ∀ (w : ℕ) (frames : List Reception) (m : Machine),
      AllAlong (receiveOne Installation.boxes w) (Guest Installation.boxes w) frames m →
      Unmoved Installation.boxes w frames m := by
  intro h
  have hguest : AllAlong (receiveOne Installation.boxes 0) (Guest Installation.boxes 0)
      [openFrame] Machine.lobby := guests_of_returned rfl (by decide +kernel)
  have hfields : ((returned (Run.forList (receiveOne Installation.boxes 0) [openFrame])
      Machine.lobby).map (fun m => m.world.game.fields.get (bytes "Go"))) = some (some 2) := by
    decide +kernel
  obtain ⟨m', hm', hgo⟩ := Option.map_eq_some_iff.mp hfields
  obtain ⟨_, hrun⟩ := returned_eq_some.mp hm'
  have hsame := h 0 [openFrame] Machine.lobby hguest 1 m' hrun
  have hnone : Machine.lobby.world.game.fields.get (bytes "Go") = none := by decide +kernel
  rw [hsame.fields, hnone] at hgo
  cases hgo

end Server

end Felt
