import Felt.Client.Bearing
import Felt.Client.Events
import Felt.Client.Portrait
import Felt.Client.Requests
import Felt.Server.Grip

/-!
# Requests that cannot fail

Whatever is not a stone is never deleted, so a request for it arrives: the
server has the object that was clicked on under the id, however long the
request takes (`arrives_of_arises`). What can still go wrong is that an empty
hand is held out to a pile.

A client decides by its own copy of the player's hand whether a click drops
something. A client that *waits* – that asks for something only when its window
shows the game as it is and nothing it has asked for is on its way – sends no
such request, and it does not become one on its way, for nobody else touches
the hand (`kept_of_waits`): a player who waits is disconnected for what they do
only if they click on a stone that is not there any more.

To wait is a condition on the client alone, which can see for itself whether its
queue is empty – though not whether everything has arrived that it is to receive.
-/

namespace Felt

namespace Client

open Box (Point)

open Server (Game Obj Kind Msg Method Policy Site Deed Numbered)

section Arrives

variable {S : Site} {fuel : ℕ} {games : List Bytes} {R : Room} {w : ℕ}

/-! ## What is never deleted -/

theorem Mindful.arrives (h : Mindful S fuel (Server.State.opening S games) R)
    (hgames : ∀ name ∈ games, name = bytes "chess" ∨ name = bytes "go")
    (hw : R.world.server.Registered w) {r : Request} {rs : List Request}
    (hasked : R.asked w = r :: rs)
    (hstone : ((R.world.client w).heap r.mirror).kind ≠ some .goPiece) :
    ∃ id e p s', ((R.world.client w).heap r.mirror).id = some id
      ∧ R.world.server.game.objects.get id = some (.entity e)
      ∧ ((R.world.client w).heap r.mirror).object = .entity e
      ∧ ((R.world.client w).heap r.mirror).kind = some (R.world.server.game.entities e).kind
      ∧ (R.world.server.workers w).player = some p
      ∧ ((Deed.act w e r.method (some r.x) (some r.y)).handler S fuel).Leaves R.world.server s'
      ∧ (¬s'.Registered w ↔ r.method = .drop
        ∧ (R.world.server.game.entities e).kind = .pile
        ∧ (R.world.server.game.people p).held = none) := by
  obtain ⟨p, hp, hin, hmade⟩ := h.asker (synced_indexed h.world).seats hw hasked
  obtain ⟨id, hid⟩ := hmade.id
  obtain ⟨k, hk, -⟩ := hmade.method
  have hne : k ≠ .goPiece := fun heq => hstone (heq ▸ hk)
  obtain ⟨e, hobject, he, rfl⟩ := bound_of_reaches h.world hin hmade.made hid hk hne
  obtain ⟨s', hl, hiff⟩ := h.granted hgames hw hp hmade he hk
  exact ⟨id, e, p, s', hid, he, hobject, hk, hp, hl, hiff⟩

/-- **Requests for what is no stone arrive.** The games are the shipped ones;
then in every room that a run reaches, whatever is on its way to the clients
and from them: if what was clicked on for the next request of a worker is no
stone, the server has it under the id of the mirror, and carries the request
out or ignores it – but for an empty hand held out to a pile, which ends the
connection. -/
theorem arrives_of_arises (S : Site) (fuel : ℕ) (games : List Bytes)
    (hgames : ∀ name ∈ games, name = bytes "chess" ∨ name = bytes "go") (R : Room)
    (hR : Arises S fuel (Server.State.opening S games) R) (w : ℕ)
    (hw : R.world.server.Registered w) (r : Request) (rs : List Request)
    (hasked : R.asked w = r :: rs)
    (hstone : ((R.world.client w).heap r.mirror).kind ≠ some .goPiece) :
    ∃ id e p s', ((R.world.client w).heap r.mirror).id = some id
      ∧ R.world.server.game.objects.get id = some (.entity e)
      ∧ ((R.world.client w).heap r.mirror).object = .entity e
      ∧ ((R.world.client w).heap r.mirror).kind = some (R.world.server.game.entities e).kind
      ∧ (R.world.server.workers w).player = some p
      ∧ ((Deed.act w e r.method (some r.x) (some r.y)).handler S fuel).Leaves R.world.server s'
      ∧ (¬s'.Registered w ↔ r.method = .drop
        ∧ (R.world.server.game.entities e).kind = .pile
        ∧ (R.world.server.game.people p).held = none) :=
  (mindful_of_arises hR).arrives hgames hw hasked hstone

/-- The go box is clicked on, and is opened. -/
theorem arrives_of_arises_box : ∃ (R : Room) (r : Request) (s' : Server.State (Point Obj)),
    Arises Site.plain 5 (Server.State.opening Site.plain [bytes "go"]) R
      ∧ R.asked 0 = [r] ∧ ((R.world.client 0).heap r.mirror).object = .entity 1
      ∧ ((Deed.act 0 1 .openBox (some 0) (some 0)).handler Site.plain 5).Leaves R.world.server s'
      ∧ s'.Registered 0 := by
  obtain ⟨R, a, hR, hw, hasked, hid, hkind, hbox, -⟩ := exists_box_clicked
  have hstone : ((R.world.client 0).heap a).kind ≠ some .goPiece := by
    rw [hkind]
    decide
  obtain ⟨id, e, p, s', hid', he, hobject, -, -, hl, hiff⟩ := arrives_of_arises Site.plain 5
    [bytes "go"] (fun _ hname => Or.inr (List.mem_singleton.mp hname)) R hR 0 hw _ [] hasked hstone
  obtain rfl := Option.some.inj (hid.symm.trans hid')
  obtain rfl := Server.Obj.entity.inj (Option.some.inj (he.symm.trans hbox))
  refine ⟨R, _, s', hR, hasked, hobject, hl, ?_⟩
  by_contra hno
  exact absurd (hiff.mp hno).1 nofun

end Arrives

/-! ## Clients that wait -/

/-- **The rooms a run reaches** in which nobody logs in twice, and the client
of `w` waits: it asks for something by a gesture, when it has received
everything and everything it has asked for has been received. The other clients
may ask for what they have. -/
inductive Waits (S : Site) (fuel : ℕ) (s₀ : Server.State (Point Obj)) (w : ℕ) : Room → Prop where
  /-- Nobody has asked for anything. -/
  | start : Waits S fuel s₀ w ⟨.start s₀, fun _ => []⟩
  /-- The server does something else: other programs may send it what they
  like, but for requests in the name of `w`. -/
  | serve {R : Room} {s' : Server.State (Point Obj)} (d : Deed) (hR : Waits S fuel s₀ w R)
      (hd : d.Possible R.world.server) (honce : d.Once S R.world.server)
      (hact : ∀ e method x y, d ≠ .act w e method x y)
      (hl : (d.handler S fuel).Leaves R.world.server s') :
      Waits S fuel s₀ w ⟨⟨s', fun v => R.world.inbox v ++ d.transmits R.world.server v,
        R.world.client⟩, R.asked⟩
  /-- A client receives a message. -/
  | receive {R : Room} (v : ℕ) {m : Msg (Point Obj)} {ms : List (Msg (Point Obj))}
      {c : Model (Point Obj)} (hR : Waits S fuel s₀ w R) (hinbox : R.world.inbox v = m :: ms)
      (hr : (R.world.client v).receive m = .ok c) :
      Waits S fuel s₀ w ⟨⟨R.world.server, Function.update R.world.inbox v ms,
        Function.update R.world.client v c⟩, R.asked⟩
  /-- Another client asks for something. -/
  | ask {R : Room} (v : ℕ) (r : Request) (hR : Waits S fuel s₀ w R) (hv : v ≠ w)
      (hr : r.Shown (R.world.client v)) :
      Waits S fuel s₀ w ⟨R.world, Function.update R.asked v (R.asked v ++ [r])⟩
  /-- The player of `w`, who has logged in as `name`, does something to what
  is under an id. -/
  | gesture {R : Room} {name : Bytes} {a id : ℕ} (gesture : Gesture) {method : Method} {x y : ℚ}
      (hR : Waits S fuel s₀ w R) (hname : R.world.server.players.get name = some w)
      (hpending : R.world.pending w = []) (hasked : R.asked w = [])
      (hid : ((R.world.client w).heap a).id = some id)
      (ha : (R.world.client w).objects.get id = some (.mirror a))
      (hr : (R.world.client w).asks name a gesture = some (method, x, y)) :
      Waits S fuel s₀ w ⟨R.world, Function.update R.asked w [⟨a, method, x, y⟩]⟩
  /-- The server receives what a client has asked for. -/
  | heed {R : Room} (v : ℕ) {r : Request} {rs : List Request} {id : ℕ} {d : Deed}
      {s' : Server.State (Point Obj)} (hR : Waits S fuel s₀ w R)
      (hv : R.world.server.Registered v) (hasked : R.asked v = r :: rs)
      (hid : ((R.world.client v).heap r.mirror).id = some id)
      (hd : r.deed v id R.world.server.game = some d)
      (hl : (d.handler S fuel).Leaves R.world.server s') :
      Waits S fuel s₀ w ⟨⟨s', R.world.inbox, R.world.client⟩, Function.update R.asked v rs⟩

section Waits

variable {S : Site} {fuel : ℕ} {games : List Bytes} {R : Room} {w : ℕ}

/-- **To wait is to do nothing else** than what clients may do. -/
theorem arises_of_waits {s₀ : Server.State (Point Obj)} (hR : Waits S fuel s₀ w R) :
    Arises S fuel s₀ R := by
  induction hR with
  | start => exact .start
  | serve d _ hd honce _ hl ih => exact .serve d ih hd honce hl
  | receive v _ hinbox hr ih => exact .receive v ih hinbox hr
  | ask v r _ _ hr ih => exact .ask v r ih hr
  | @gesture R name a id gesture method x y _ _ _ hasked hid ha hr ih =>
    have hshown : (⟨a, method, x, y⟩ : Request).Shown (R.world.client w) :=
      ⟨⟨id, hid, ha⟩, (of_asks hr).1⟩
    have harises := Arises.ask w _ ih hshown
    rwa [hasked, List.nil_append] at harises
  | heed v _ hv hasked hid hd hl ih => exact .heed v ih hv hasked hid hd hl

/-- **What waiting keeps**: there is one request of `w` at most, and if it is to
drop something, the player holds something. -/
structure Patient (w : ℕ) (s : Server.State (Point Obj)) (asked : List Request) : Prop where
  /-- One request at most. -/
  one : asked.length ≤ 1
  /-- What is to be dropped is held. -/
  held : s.LoggedIn w → ∀ r ∈ asked, r.method = .drop →
    ∀ p, (s.workers w).player = some p → (s.game.people p).held ≠ none

theorem patient_nil (w : ℕ) (s : Server.State (Point Obj)) : Patient w s [] :=
  ⟨Nat.zero_le _, fun _ _ hr => by cases hr⟩

/-- **A step that is none of a request of `w`** leaves the hand of their player
alone. -/
theorem Patient.serve (h : Patient w R.world.server (R.asked w))
    (hmindful : Mindful S fuel (Server.State.opening S games) R) {d : Deed}
    (hd : d.Possible R.world.server) (honce : d.Once S R.world.server)
    (hact : ∀ e method x y, d ≠ .act w e method x y) {s' : Server.State (Point Obj)}
    (hl : (d.handler S fuel).Leaves R.world.server s') : Patient w s' (R.asked w) := by
  refine ⟨h.one, fun hin r hr hdrop p hp => ?_⟩
  have hsynced := synced_indexed hmindful.world
  have hunmade := hsynced.unmade _ le_rfl
  -- whoever has asked for something has a player, who is the same
  obtain ⟨q, hq⟩ : ∃ q, (R.world.server.workers w).player = some q := by
    refine Option.ne_none_iff_exists'.mp (fun hnone => ?_)
    rw [hmindful.guest w hnone] at hr
    cases hr
  obtain ⟨hq', hwas⟩ := Server.player_of_leaves hsynced.seats hunmade
    (hsynced.guest _ hunmade).2.1 hq hd honce hl
  obtain rfl := Option.some.inj (hq'.symm.trans hp)
  rw [Server.held_of_leaves hsynced.manned hsynced.seats
    (Server.introduced_of_played (played_of_reached hmindful.world))
    (hsynced.seats.registered (hwas hin)) hq hd honce hact hl hin]
  exact h.held (hwas hin) r hr hdrop q hq

/-- **The client's copy of a hand** is the hand. -/
theorem Portrait.holding {P : Policy} {g : Game (Point Obj)} {c : Model (Point Obj)}
    (h : Portrait P g c) (hg : Numbered g) {name : Bytes} {p : ℕ}
    (hp : g.players.get name = some p) :
    c.holding name = some (g.people p).held.isSome := by
  have hands := h.sameHands hg
  obtain ⟨a, ha, hheld⟩ := hands.held p (h.linked.player name p hp)
  unfold Model.holding
  rw [hands.players, hp, Option.map_some, Option.map_some, ha]
  show some (c.heap a).held.isSome = _
  rw [hheld, Option.isSome_map]

/-- **A client that has received everything** knows what its player holds. -/
theorem holding_of_reached
    (hW : Reached (serving S fuel (fun d s => d.Once S s)) (Server.State.opening S games) R.world)
    {name : Bytes} (hname : R.world.server.players.get name = some w)
    (hpending : R.world.pending w = []) {p : ℕ}
    (hp : (R.world.server.workers w).player = some p) :
    (R.world.client w).holding name = some (R.world.server.game.people p).held.isSome := by
  have h := synced_portrait (P := Policy.shipped) rfl id (fun _ _ hok => hok)
    (fun d s _ _ _ => Server.may_shipped d s) hW
  obtain ⟨c, hreplays, hc⟩ := h.follows w ⟨name, hname⟩
  rw [hpending] at hreplays
  cases hreplays with
  | nil =>
    refine hc.holding h.manned.sound.numbered ?_
    rw [← (h.seats.session name w hname).2.1]
    exact Server.introduced_of_played (played_of_reached hW) w p hp

/-- **Whoever waits stays patient.** -/
theorem patient_of_waits (hR : Waits S fuel (Server.State.opening S games) w R) :
    Patient w R.world.server (R.asked w) := by
  induction hR with
  | start => exact patient_nil _ _
  | serve d hR hd honce hact hl ih =>
    exact ih.serve (mindful_of_arises (arises_of_waits hR)) hd honce hact hl
  | receive v _ _ _ ih => exact ih
  | @ask R v r _ hv _ ih =>
    show Patient w R.world.server (Function.update R.asked v _ w)
    rw [Function.update_of_ne hv.symm]
    exact ih
  | @gesture R name a id gesture method x y hR hname hpending _ _ _ hr _ =>
    show Patient w R.world.server (Function.update R.asked w _ w)
    rw [Function.update_self]
    refine ⟨le_rfl, fun _ r' hr' hdrop p hp => ?_⟩
    obtain rfl := List.mem_singleton.mp hr'
    -- the client asks to drop something only if the player holds something
    have hholding := (of_asks hr).2 hdrop
    rw [holding_of_reached (mindful_of_arises (arises_of_waits hR)).world hname hpending hp]
      at hholding
    exact Option.isSome_iff_ne_none.mp (Option.some.inj hholding)
  | @heed R v r rs id d s' hR hv hasked _ hd hl ih =>
    show Patient w s' (Function.update R.asked v rs w)
    by_cases hvw : v = w
    · -- it was the only one
      subst hvw
      have hone := ih.one
      rw [hasked] at hone
      rw [Function.update_self, List.length_eq_zero_iff.mp (Nat.le_zero.mp
        (Nat.le_of_succ_le_succ hone))]
      exact patient_nil _ _
    · obtain ⟨hpossible, honce, -⟩ := Request.deed_possible (S := S) hv hd
      rw [Function.update_of_ne (Ne.symm hvw)]
      refine ih.serve (mindful_of_arises (arises_of_waits hR)) hpossible honce ?_ hl
      rintro e method x y rfl
      exact hvw (Request.eq_of_deed hd)

theorem waits_of_reached {s₀ : Server.State (Point Obj)} {W : World}
    (hW : Reached (serving S fuel (fun d s => d.Once S s ∧ ∀ e method x y, d ≠ .act w e method x y))
      s₀ W) : Waits S fuel s₀ w ⟨W, fun _ => []⟩ := by
  induction hW with
  | start => exact .start
  | serve _ hs ih =>
    obtain ⟨d, hd, ⟨honce, hact⟩, hl, rfl⟩ := hs
    exact .serve d ih hd honce hact hl
  | receive v _ hinbox hr ih => exact .receive v ih hinbox hr

end Waits

end Client

end Felt
