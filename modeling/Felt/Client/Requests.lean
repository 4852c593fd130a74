import Felt.Client.Aim
import Felt.Server.Equipment

/-!
# Requests on their way

A player asks for something by what their client shows: they click on a
mirror, and its id, the name of a method and two coordinates are sent. When the
server receives that, the object may have been deleted, and its id given to
another one. A `Room` is a world with the requests that are on their way to the
server, in the order they were made in.

`heeded_of_arises` says what a request comes to: it is for the object that was
clicked on, or the server has nothing under the id and ends the connection, or
the client was about to be told that the id was given to something else. In the
first case it is granted, or nothing comes of it, but for an empty hand that is
held out to a pile.

A request that is received under the id of a player has no step here. The
server calls the method of the player then, which no client asks for; and a
player is under the id only if it was given to something else.
-/

namespace Felt

namespace Client

open Box (Point)

open Server (Game Obj Msg Method Policy Site Deed)

/-! ## Rooms -/

/-- **What a client asks for.** -/
structure Request where
  /-- The mirror that was clicked on. -/
  mirror : ℕ
  /-- The method. -/
  method : Method
  /-- Where it was clicked on. -/
  x : ℚ
  /-- Where it was clicked on. -/
  y : ℚ

/-- **A server and its clients**, and what the clients have asked for. -/
structure Room where
  /-- The server and the clients. -/
  world : World
  /-- What a client has sent, and the server has not received. -/
  asked : ℕ → List Request

/-- **A client may ask for this**: the mirror has an id, and is what is under
it; and its class lists the method. -/
structure Request.Shown (r : Request) (c : Model (Point Obj)) : Prop where
  /-- What is under the id of the mirror is the mirror. -/
  id : ∃ id, (c.heap r.mirror).id = some id ∧ c.objects.get id = some (.mirror r.mirror)
  /-- The class lists the method. -/
  method : ∃ k, (c.heap r.mirror).kind = some k ∧ r.method ∈ k.actions

/-- **What the server does about a request** for an id: it calls the method of
the entity; if there is nothing, the message is not unpacked, and the worker
disconnects.

The id may have become a player's. The server would call the player's own
method then, which is no deed, and a run does not go on with such a request. -/
def Request.deed (r : Request) (w id : ℕ) (g : Game (Point Obj)) : Option Deed :=
  match g.objects.get id with
  | some (.entity e) => some (.act w e r.method (some r.x) (some r.y))
  | some _ => none
  | none => some (.session (.disconnect w))

/-- **The rooms a run reaches** in which nobody logs in twice. -/
inductive Arises (S : Site) (fuel : ℕ) (s₀ : Server.State (Point Obj)) : Room → Prop where
  /-- Nobody has asked for anything. -/
  | start : Arises S fuel s₀ ⟨.start s₀, fun _ => []⟩
  /-- The server does something else, of what is a deed: other programs may send
  it requests, too. -/
  | serve {R : Room} {s' : Server.State (Point Obj)} (d : Deed) (hR : Arises S fuel s₀ R)
      (hd : d.Possible R.world.server) (honce : d.Once S R.world.server)
      (hl : (d.handler S fuel).Leaves R.world.server s') :
      Arises S fuel s₀ ⟨⟨s', fun v => R.world.inbox v ++ d.transmits R.world.server v,
        R.world.client⟩, R.asked⟩
  /-- A client receives a message. -/
  | receive {R : Room} (w : ℕ) {m : Msg (Point Obj)} {ms : List (Msg (Point Obj))}
      {c : Model (Point Obj)} (hR : Arises S fuel s₀ R) (hinbox : R.world.inbox w = m :: ms)
      (hr : (R.world.client w).receive m = .ok c) :
      Arises S fuel s₀ ⟨⟨R.world.server, Function.update R.world.inbox w ms,
        Function.update R.world.client w c⟩, R.asked⟩
  /-- A client asks for something. -/
  | ask {R : Room} (w : ℕ) (r : Request) (hR : Arises S fuel s₀ R)
      (hr : r.Shown (R.world.client w)) :
      Arises S fuel s₀ ⟨R.world, Function.update R.asked w (R.asked w ++ [r])⟩
  /-- The server receives what a client has asked for. -/
  | heed {R : Room} (w : ℕ) {r : Request} {rs : List Request} {id : ℕ} {d : Deed}
      {s' : Server.State (Point Obj)} (hR : Arises S fuel s₀ R)
      (hw : R.world.server.Registered w) (hasked : R.asked w = r :: rs)
      (hid : ((R.world.client w).heap r.mirror).id = some id)
      (hd : r.deed w id R.world.server.game = some d)
      (hl : (d.handler S fuel).Leaves R.world.server s') :
      Arises S fuel s₀ ⟨⟨s', R.world.inbox, R.world.client⟩, Function.update R.asked w rs⟩

/-! ## What every run keeps -/

/-- **The mirror that was clicked on** was made, and is what it was. -/
structure Request.Made (r : Request) (c : Model (Point Obj)) : Prop where
  /-- It was made. -/
  made : r.mirror < c.next
  /-- It has an id. -/
  id : ∃ id, (c.heap r.mirror).id = some id
  /-- Its class lists the method. -/
  method : ∃ k, (c.heap r.mirror).kind = some k ∧ r.method ∈ k.actions

theorem Request.Shown.made {r : Request} {c : Model (Point Obj)} (h : r.Shown c) (hc : Tidy c) :
    r.Made c := by
  obtain ⟨id, hid, hget⟩ := h.id
  exact ⟨(hc id _ hget).2 _ rfl, ⟨id, hid⟩, h.method⟩

/-- A client that has received nothing has nothing to click on. -/
theorem Request.not_shown_fresh (r : Request) : ¬r.Shown .fresh := by
  intro h
  obtain ⟨id, -, hget⟩ := h.id
  cases hget

/-- Receiving a message leaves the mirrors what they are. -/
theorem Request.Made.receive {r : Request} {m : Msg (Point Obj)} {c c' : Model (Point Obj)}
    (h : r.Made c) (hears : Hears m c c') : r.Made c' := by
  obtain ⟨-, hid, hkind⟩ := hears.old r.mirror h.made
  refine ⟨h.made.trans_le hears.next, ?_, ?_⟩
  · rw [hid]
    exact h.id
  · rw [hkind]
    exact h.method

/-- **What holds of the requests** in every room. -/
structure Mindful (S : Site) (fuel : ℕ) (s₀ : Server.State (Point Obj)) (R : Room) : Prop where
  /-- The world is one that a run reaches. -/
  world : Reached (serving S fuel (fun d s => d.Once S s)) s₀ R.world
  /-- A guest has not asked for anything. -/
  guest : ∀ w, (R.world.server.workers w).player = none → R.asked w = []
  /-- The others have clicked on mirrors they have. -/
  made : ∀ w, R.world.server.LoggedIn w → ∀ r ∈ R.asked w, r.Made (R.world.client w)

section Mindful

variable {S : Site} {fuel : ℕ} {games : List Bytes} {R : Room}

/-- **A step of the server**, after which the same is asked for or less. -/
theorem Mindful.serve (h : Mindful S fuel (Server.State.opening S games) R) {d : Deed}
    (hd : d.Possible R.world.server) (honce : d.Once S R.world.server)
    {s' : Server.State (Point Obj)} (hl : (d.handler S fuel).Leaves R.world.server s')
    (asked : ℕ → List Request) (hasked : ∀ w, asked w ⊆ R.asked w) :
    Mindful S fuel (Server.State.opening S games)
      ⟨⟨s', fun v => R.world.inbox v ++ d.transmits R.world.server v, R.world.client⟩, asked⟩ := by
  have hsynced := synced_indexed h.world
  have hserves := Server.serves_of_leaves (P := Policy.shipped) rfl hsynced.manned hsynced.seats
    hsynced.unmade (fun v hv => (hsynced.guest v hv).2.1) hd honce
    (fun _ => Server.may_shipped d _) hl
  have hnone : ∀ w, (R.world.server.workers w).player = none → asked w = [] := fun w hw => by
    have hsub := hasked w
    rw [h.guest w hw] at hsub
    exact List.subset_nil.mp hsub
  refine ⟨.serve h.world ⟨d, hd, honce, hl, rfl⟩, fun w hw => hnone w (hserves.guest w hw).1,
    fun w hw r hr => ?_⟩
  -- whoever is logged in was, or was a guest
  by_cases hguest : (R.world.server.workers w).player = none
  · change r ∈ asked w at hr
    rw [hnone w hguest] at hr
    cases hr
  · refine h.made w ?_ r (hasked w hr)
    cases hserves.delivers with
    | cast ms _ hqueue => exact (hqueue w hw).1
    | welcome v g _ hv _ _ _ _ hothers =>
      refine (hothers w ?_ hw).1
      rintro rfl
      exact hguest hv

/-- What the server does about a request is possible, and no login. -/
theorem Request.deed_possible {r : Request} {w id : ℕ} {s : Server.State (Point Obj)} {d : Deed}
    (hw : s.Registered w) (hd : r.deed w id s.game = some d) :
    d.Possible s ∧ d.Once S s ∧ ∀ v, d.transmits s v = [] := by
  unfold Request.deed at hd
  split at hd
  · next e he =>
    obtain rfl := Option.some.inj hd
    exact ⟨⟨hw, id, he⟩, trivial, fun _ => rfl⟩
  · cases hd
  · obtain rfl := Option.some.inj hd
    exact ⟨hw, nofun, fun _ => rfl⟩

/-- The server acts for who has asked. -/
theorem Request.eq_of_deed {r : Request} {v w id e : ℕ} {method : Method} {x y : Option ℚ}
    {g : Game (Point Obj)} (h : r.deed v id g = some (.act w e method x y)) : v = w := by
  unfold Request.deed at h
  split at h
  · exact (Deed.act.inj (Option.some.inj h)).1
  · cases h
  · cases h

/-- **In every room** the clients have asked for what they have. -/
theorem mindful_of_arises (hR : Arises S fuel (Server.State.opening S games) R) :
    Mindful S fuel (Server.State.opening S games) R := by
  induction hR with
  | start =>
    exact ⟨.start, fun _ _ => rfl, fun _ _ _ hr => by cases hr⟩
  | serve d _ hd honce hl ih => exact ih.serve hd honce hl _ (fun _ => List.Subset.refl _)
  | @receive R w m ms c _ hinbox hr ih =>
    refine ⟨.receive w ih.world hinbox hr, ih.guest, fun v hv r hmem => ?_⟩
    have hmade := ih.made v hv r hmem
    by_cases hvw : v = w
    · subst hvw
      have hsteadfast := steadfast_of_reaches ih.world v hv
      have horder : InOrder m := by
        refine hsteadfast.inOrder m (List.mem_append_left _ ?_)
        rw [hinbox]
        exact List.mem_cons_self
      -- what was clicked on is still there when the client has received more
      show r.Made (Function.update R.world.client v c v)
      rw [Function.update_self]
      exact hmade.receive (hsteadfast.tidy.receive horder hr)
    · show r.Made (Function.update R.world.client w c v)
      rw [Function.update_of_ne hvw]
      exact hmade
  | @ask R w r _ hr ih =>
    have hguest := (synced_indexed ih.world).guest w
    refine ⟨ih.world, fun v hv => ?_, fun v hv r' hmem => ?_⟩
    -- a client that asks for something has received the game, so it is no guest's
    · have hvw : v ≠ w := by
        rintro rfl
        rw [(hguest hv).2.2] at hr
        exact r.not_shown_fresh hr
      show Function.update R.asked w _ v = []
      rw [Function.update_of_ne hvw]
      exact ih.guest v hv
    · change r' ∈ Function.update R.asked w (R.asked w ++ [r]) v at hmem
      by_cases hvw : v = w
      · subst hvw
        rw [Function.update_self] at hmem
        rcases List.mem_append.mp hmem with hold | hnew
        · exact ih.made v hv r' hold
        · obtain rfl := List.mem_singleton.mp hnew
          exact hr.made (steadfast_of_reaches ih.world v hv).tidy
      · rw [Function.update_of_ne hvw] at hmem
        exact ih.made v hv r' hmem
  | @heed R w r rs id d s' _ hw hasked _ hd hl ih =>
    -- heeding a request is a deed that sends nothing at once
    obtain ⟨hpossible, honce, hquiet⟩ := Request.deed_possible (S := S) hw hd
    have hserve := ih.serve hpossible honce hl (Function.update R.asked w rs)
      (fun v r' hmem => ?_)
    · have hinbox : (fun v => R.world.inbox v ++ d.transmits R.world.server v)
          = R.world.inbox := by
        funext v
        rw [hquiet v, List.append_nil]
      rwa [hinbox] at hserve
    · by_cases hvw : v = w
      · subst hvw
        rw [Function.update_self] at hmem
        rw [hasked]
        exact List.mem_cons_of_mem r hmem
      · rwa [Function.update_of_ne hvw] at hmem

/-! ## Catching up -/

theorem arises_of_reached {s₀ : Server.State (Point Obj)} {W : World}
    (hW : Reached (serving S fuel (fun d s => d.Once S s)) s₀ W) :
    Arises S fuel s₀ ⟨W, fun _ => []⟩ := by
  induction hW with
  | start => exact .start
  | serve _ hs ih =>
    obtain ⟨d, hd, honce, hl, rfl⟩ := hs
    exact .serve d ih hd honce hl
  | receive w _ hinbox hr ih => exact .receive w ih hinbox hr

/-- Deeds that meet a condition meet a weaker one. -/
theorem reached_of_imp {ok ok' : Deed → Server.State (Point Obj) → Prop}
    (h : ∀ d s, ok d s → ok' d s) {s₀ : Server.State (Point Obj)} {W : World}
    (hW : Reached (serving S fuel ok) s₀ W) : Reached (serving S fuel ok') s₀ W :=
  hW.mono (fun _ ⟨d, hd, hok, hl, hsent⟩ => ⟨d, hd, h d _ hok, hl, hsent⟩)

/-- **What was sent is received.** -/
theorem exists_received {step : Serving} {s₀ : Server.State (Point Obj)} {W : World} {w : ℕ}
    {ms : List (Msg (Point Obj))} {c : Model (Point Obj)} (hW : Reached step s₀ W)
    (hinbox : W.inbox w = ms) (hr : Replays (W.client w) ms c) :
    ∃ W', Reached step s₀ W' ∧ W'.server = W.server ∧ W'.inbox w = [] ∧ W'.client w = c := by
  generalize hc : W.client w = d at hr
  induction hr generalizing W with
  | nil d => exact ⟨W, hW, rfl, hinbox, hc⟩
  | cons hm hr _ ih =>
    obtain ⟨W', hW', hserver, hnone, hclient⟩ := ih (.receive w hW hinbox (hc ▸ hr))
      (Function.update_self _ _ _) (Function.update_self _ _ _)
    exact ⟨W', hW', hserver, hnone, hclient⟩

section CatchingUp

variable {ok : Deed → Server.State (Point Obj) → Prop} {W : World} {w : ℕ}
  (hsend : ∀ s, ok (.transmit w true) s)

include hsend

/-- **What is queued can be sent.** -/
theorem exists_transmitted {s₀ : Server.State (Point Obj)} (hW : Reached (serving S fuel ok) s₀ W)
    (hw : W.server.Registered w) :
    ∃ W', Reached (serving S fuel ok) s₀ W'
      ∧ Server.SameTables W.server W'.server ∧ W'.server.game = W.server.game
      ∧ (W'.server.workers w).sendq = [] := by
  generalize hq : (W.server.workers w).sendq = q
  induction q generalizing W with
  | nil => exact ⟨W, hW, .refl _, rfl, hq⟩
  | cons m ms ih =>
    have hl : ((Deed.transmit w true).handler S fuel).Leaves W.server (W.server.popped w) := by
      refine Or.inl ⟨(), ?_⟩
      show (if (W.server.workers w).sendq = [] then pure ()
        else Run.xpcall (Server.transmit w true) (fun _ => Server.disconnect w) :
          Server.Handler (Point Obj) Unit) W.server = _
      rw [if_neg (by rw [hq]; nofun)]
      rfl
    have hsame : Server.SameTables W.server (W.server.popped w) :=
      Server.SameTables.mapQueue W.server w (List.drop 1)
    have hpopped : ((W.server.popped w).workers w).sendq = ms := by
      show (Function.update W.server.workers w _ w).sendq = ms
      rw [Function.update_self]
      show (W.server.workers w).sendq.drop 1 = ms
      rw [hq]
      rfl
    obtain ⟨W', hW', htables, hgame, hnone⟩ :=
      ih (.serve hW ⟨.transmit w true, hw, hsend _, hl, rfl⟩) (hsame.registered.mpr hw) hpopped
    exact ⟨W', hW', hsame.trans htables, hgame, hnone⟩

/-- **Whoever is logged in can catch up**: the game stays as it is, and the
client has received everything. -/
theorem exists_caught_up (honce : ∀ d s, ok d s → d.Once S s)
    (hW : Reached (serving S fuel ok) (Server.State.opening S games) W)
    (hw : W.server.LoggedIn w) :
    ∃ W', Reached (serving S fuel ok) (Server.State.opening S games) W'
      ∧ Server.SameTables W.server W'.server ∧ W'.server.game = W.server.game
      ∧ W'.pending w = [] ∧ Indexed W'.server.game (W'.client w) := by
  have hseats := (synced_indexed (reached_of_imp honce hW)).seats
  obtain ⟨W₁, hW₁, htables, hgame, hsendq⟩ :=
    exists_transmitted hsend hW (hseats.registered hw)
  have hw₁ : W₁.server.LoggedIn w := (Server.loggedIn_congr htables.players w).mpr hw
  obtain ⟨c, hreplays, hc⟩ := (synced_indexed (reached_of_imp honce hW₁)).follows w hw₁
  rw [World.pending, hsendq, List.append_nil] at hreplays
  obtain ⟨W', hW', hserver, hinbox, hclient⟩ := exists_received hW₁ rfl hreplays
  refine ⟨W', hW', hserver ▸ htables, hserver ▸ hgame, ?_, ?_⟩
  · rw [World.pending, hserver, hsendq, hinbox]
    rfl
  · rw [hserver, hclient]
    exact hc

end CatchingUp

/-! ## What a request comes to -/

/-- **Whoever has asked for something** is logged in, and has clicked on a
mirror that was made. -/
theorem Mindful.asker {s₀ : Server.State (Point Obj)} (h : Mindful S fuel s₀ R)
    (hi : Server.Seats R.world.server) {w : ℕ} (hw : R.world.server.Registered w) {r : Request}
    {rs : List Request} (hasked : R.asked w = r :: rs) :
    ∃ p, (R.world.server.workers w).player = some p ∧ R.world.server.LoggedIn w
      ∧ r.Made (R.world.client w) := by
  obtain ⟨p, hp⟩ : ∃ p, (R.world.server.workers w).player = some p := by
    refine Option.ne_none_iff_exists'.mp (fun hnone => ?_)
    rw [h.guest w hnone] at hasked
    cases hasked
  have hin : R.world.server.LoggedIn w := ⟨_, hi.player w p hw hp⟩
  refine ⟨p, hp, hin, h.made w hin r ?_⟩
  rw [hasked]
  exact List.mem_cons_self

/-- **A request for an entity** that the client knows the class of: it ends the
connection if an empty hand is held out to a pile, and in no other case. -/
theorem Mindful.granted (h : Mindful S fuel (Server.State.opening S games) R)
    (hgames : ∀ name ∈ games, name = bytes "chess" ∨ name = bytes "go") {w p id e : ℕ}
    (hw : R.world.server.Registered w) (hp : (R.world.server.workers w).player = some p)
    {r : Request} (hmade : r.Made (R.world.client w))
    (he : R.world.server.game.objects.get id = some (.entity e))
    (hkind : ((R.world.client w).heap r.mirror).kind = some (R.world.server.game.entities e).kind) :
    ∃ s', ((Deed.act w e r.method (some r.x) (some r.y)).handler S fuel).Leaves R.world.server s'
      ∧ (¬s'.Registered w ↔ r.method = .drop ∧ (R.world.server.game.entities e).kind = .pile
        ∧ (R.world.server.game.people p).held = none) := by
  obtain ⟨k, hk, hmethod⟩ := hmade.method
  obtain rfl := Option.some.inj (hk.symm.trans hkind)
  have hequipped := (Server.lasting_equipped S fuel).played
    (Server.equipped_start S.length hgames) (played_of_reached h.world)
  exact hequipped.disconnected_iff (synced_indexed h.world).manned hw hp ⟨id, he⟩ hmethod r.x r.y

theorem Mindful.heeded (h : Mindful S fuel (Server.State.opening S games) R)
    (hgames : ∀ name ∈ games, name = bytes "chess" ∨ name = bytes "go") {w : ℕ}
    (hw : R.world.server.Registered w) {r : Request} {rs : List Request}
    (hasked : R.asked w = r :: rs) :
    ∃ id, ((R.world.client w).heap r.mirror).id = some id ∧ (Overtaken R.world w r.mirror id
      ∨ R.world.server.game.objects.get id = none
      ∨ ∃ e p s', R.world.server.game.objects.get id = some (.entity e)
        ∧ ((R.world.client w).heap r.mirror).object = .entity e
        ∧ ((R.world.client w).heap r.mirror).kind = some (R.world.server.game.entities e).kind
        ∧ (R.world.server.workers w).player = some p
        ∧ ((Deed.act w e r.method (some r.x) (some r.y)).handler S fuel).Leaves R.world.server s'
        ∧ (¬s'.Registered w ↔ r.method = .drop
          ∧ (R.world.server.game.entities e).kind = .pile
          ∧ (R.world.server.game.people p).held = none)) := by
  obtain ⟨p, hp, hin, hmade⟩ := h.asker (synced_indexed h.world).seats hw hasked
  obtain ⟨id, hid⟩ := hmade.id
  refine ⟨id, hid, or_iff_not_imp_left.mpr (fun hover => ?_)⟩
  rcases ho : R.world.server.game.objects.get id with _ | o
  · exact Or.inl rfl
  obtain ⟨hobject, hkind⟩ := meant_of_reaches h.world hin hover ho
  obtain ⟨k, hk, -⟩ := hmade.method
  rw [hk] at hkind
  cases o with
  | game => cases hkind
  | player q => cases hkind
  | entity e =>
    obtain ⟨s', hl, hiff⟩ := h.granted hgames hw hp hmade ho (hk.trans hkind)
    exact Or.inr ⟨e, p, s', rfl, hobject, hk.trans hkind, hp, hl, hiff⟩

/-- **What a request comes to.** The games are the shipped ones; then in every
room that a run reaches, whatever is on its way to the clients and from them:
the next request of a worker is for the id of the mirror that was clicked on.
Unless that was given to something else, the server has nothing under it, or it
has the entity that was clicked on, of the class that the client knows; and
then the connection ends if an empty hand is held out to a pile, and in no
other case. -/
theorem heeded_of_arises (S : Site) (fuel : ℕ) (games : List Bytes)
    (hgames : ∀ name ∈ games, name = bytes "chess" ∨ name = bytes "go") (R : Room)
    (hR : Arises S fuel (Server.State.opening S games) R) (w : ℕ)
    (hw : R.world.server.Registered w) (r : Request) (rs : List Request)
    (hasked : R.asked w = r :: rs) :
    ∃ id, ((R.world.client w).heap r.mirror).id = some id ∧ (Overtaken R.world w r.mirror id
      ∨ R.world.server.game.objects.get id = none
      ∨ ∃ e p s', R.world.server.game.objects.get id = some (.entity e)
        ∧ ((R.world.client w).heap r.mirror).object = .entity e
        ∧ ((R.world.client w).heap r.mirror).kind = some (R.world.server.game.entities e).kind
        ∧ (R.world.server.workers w).player = some p
        ∧ ((Deed.act w e r.method (some r.x) (some r.y)).handler S fuel).Leaves R.world.server s'
        ∧ (¬s'.Registered w ↔ r.method = .drop
          ∧ (R.world.server.game.entities e).kind = .pile
          ∧ (R.world.server.game.people p).held = none)) :=
  (mindful_of_arises hR).heeded hgames hw hasked

/-- **Somebody logs in and receives the game**, and has a mirror of the go box. -/
theorem exists_box_shown : ∃ (V : World) (a : ℕ),
    Reached (serving Site.plain 5 (fun d s => d.Once Site.plain s))
        (Server.State.opening Site.plain [bytes "go"]) V
      ∧ V.server.Registered 0 ∧ (V.client 0).objects.get 2 = some (.mirror a)
      ∧ a < (V.client 0).next ∧ ((V.client 0).heap a).id = some 2
      ∧ ((V.client 0).heap a).kind = some .box
      ∧ V.server.game.objects.get 2 = some (.entity 1)
      ∧ (V.server.game.entities 1).kind = .box ∧ V.pending 0 = [] := by
  obtain ⟨s, hs, hin, hbox, hkind⟩ := exists_reaches Site.plain 5
    (Server.State.opening Site.plain [bytes "go"])
    [.session (.connect 0 (some [])),
      .session (.login 0 (.string (bytes "a")) .nil .nil .nil .nil)]
    (Q := fun s => s.LoggedIn 0 ∧ s.game.objects.get 2 = some (.entity 1)
      ∧ (s.game.entities 1).kind = .box) (by decide +kernel)
  obtain ⟨V, hV, hsame, hgame, hpending, hindexed⟩ :=
    exists_caught_up (fun _ => trivial) (fun _ _ => id) hs hin
  change V.server.game = s.game at hgame
  rw [← hgame] at hbox hkind
  obtain ⟨a, ha, hmade, hof⟩ := hindexed.mirror 2 (.entity 1) hbox
  exact ⟨V, a, hV, hsame.registered.mpr ((synced_indexed hs).seats.registered hin), ha, hmade,
    hof.id, hof.kind.trans (congrArg some hkind), hbox, hkind, hpending⟩

/-- **Somebody logs in, receives the game, and clicks on the go box.** -/
theorem exists_box_clicked : ∃ (R : Room) (a : ℕ),
    Arises Site.plain 5 (Server.State.opening Site.plain [bytes "go"]) R
      ∧ R.world.server.Registered 0 ∧ R.asked 0 = [⟨a, .openBox, 0, 0⟩]
      ∧ ((R.world.client 0).heap a).id = some 2
      ∧ ((R.world.client 0).heap a).kind = some .box
      ∧ R.world.server.game.objects.get 2 = some (.entity 1) ∧ ¬Overtaken R.world 0 a 2 := by
  obtain ⟨V, a, hV, hregistered, ha, -, hid, hclass, hbox, -, hpending⟩ := exists_box_shown
  have hr : (⟨a, .openBox, 0, 0⟩ : Request).Shown (V.client 0) :=
    ⟨⟨2, hid, ha⟩, .box, hclass, List.mem_singleton_self _⟩
  have hasked : (Function.update (fun _ => []) 0 ([] ++ [⟨a, .openBox, 0, 0⟩]) : ℕ → List Request) 0
      = [⟨a, .openBox, 0, 0⟩] := Function.update_self _ _ _
  refine ⟨_, a, .ask 0 _ (arises_of_reached hV) hr, hregistered, hasked, hid, hclass, hbox, ?_⟩
  -- the client has received everything, and has one mirror under the id
  rintro (⟨m, hm, -⟩ | ⟨b, hb, hother⟩)
  · change m ∈ V.pending 0 at hm
    rw [hpending] at hm
    cases hm
  · exact hb (Ref.mirror.inj (Option.some.inj (hother.symm.trans ha)))

/-- Somebody logs in, receives the game, and clicks on the go box, which is
opened. -/
theorem heeded_of_arises_box : ∃ (R : Room) (r : Request) (s' : Server.State (Point Obj)),
    Arises Site.plain 5 (Server.State.opening Site.plain [bytes "go"]) R
      ∧ R.asked 0 = [r] ∧ r.method = .openBox
      ∧ ((Deed.act 0 1 .openBox (some 0) (some 0)).handler Site.plain 5).Leaves R.world.server s'
      ∧ s'.Registered 0 := by
  obtain ⟨R, a, hR, hw, hasked, hid, -, hbox, hover⟩ := exists_box_clicked
  obtain ⟨id, hid', hcase⟩ := heeded_of_arises Site.plain 5 [bytes "go"]
    (fun _ hname => Or.inr (List.mem_singleton.mp hname)) R hR 0 hw _ [] hasked
  obtain rfl := Option.some.inj (hid.symm.trans hid')
  rcases hcase.resolve_left hover with hnone | ⟨e, p, s', he, -, -, -, hl, hiff⟩
  · exact absurd (hnone.symm.trans hbox) nofun
  · obtain rfl := Server.Obj.entity.inj (Option.some.inj (he.symm.trans hbox))
    refine ⟨R, _, s', hR, hasked, rfl, hl, ?_⟩
    by_contra hno
    exact absurd (hiff.mp hno).1 nofun

end Mindful

end Client

end Felt
