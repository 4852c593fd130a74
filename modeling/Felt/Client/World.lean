import Felt.Client.Snapshot
import Felt.Server.Delivery

/-!
# The server and its clients

What a worker has sent is on its way until its client receives it – one
message at a time, in order, and as late as it likes. A `World` is the server,
what is on its way, and the clients; a step is one of the server's, or a
client receives a message.

What a client is to make of what it will have received is a relation between
the game and the model. When the snapshot establishes it and every stretch of
changes keeps it, then it holds in every world for whoever is logged in, when
what is on its way and what is queued has been received (`synced_of_reaches`).

The rule is a simulation that looks ahead. A client that is behind is not in any
relation to the game as it is now, but there is one between the game and what the
client will be when it has received everything that was sent and queued for it.
Every step of the server adds to what the client will receive, and a client that
receives something only comes nearer. In this form the interleaving does not
matter, and what is proved is about one update and one snapshot.
-/

namespace Felt

namespace Client

open Box (Point)

open Server (Game Obj Msg Policy Site Sound Seats Manned Stretch Spell Delivers Serves Deed
  snapshot)

/-! ## Worlds -/

/-- **A server and its clients.** -/
structure World where
  /-- The server. -/
  server : Server.State (Point Obj)
  /-- What a worker has sent, and its client has not received. -/
  inbox : ℕ → List (Msg (Point Obj))
  /-- What the client of a worker has. -/
  client : ℕ → Model (Point Obj)

/-- The world when nothing was sent. -/
def World.start (s : Server.State (Point Obj)) : World := ⟨s, fun _ => [], fun _ => .fresh⟩

/-- What the server may do, and what its workers send then. -/
abbrev Serving : Type :=
  Server.State (Point Obj) → (ℕ → List (Msg (Point Obj))) → Server.State (Point Obj) → Prop

/-- **The worlds a run reaches.** -/
inductive Reached (step : Serving) (s₀ : Server.State (Point Obj)) : World → Prop where
  /-- The one it starts in. -/
  | start : Reached step s₀ (.start s₀)
  /-- The server does something. -/
  | serve {W : World} {sent : ℕ → List (Msg (Point Obj))} {s' : Server.State (Point Obj)}
      (hW : Reached step s₀ W) (hs : step W.server sent s') :
      Reached step s₀ ⟨s', fun w => W.inbox w ++ sent w, W.client⟩
  /-- A client receives a message. -/
  | receive {W : World} (w : ℕ) {m : Msg (Point Obj)} {ms : List (Msg (Point Obj))}
      {c : Model (Point Obj)} (hW : Reached step s₀ W) (hinbox : W.inbox w = m :: ms)
      (hr : (W.client w).receive m = .ok c) :
      Reached step s₀ ⟨W.server, Function.update W.inbox w ms, Function.update W.client w c⟩

/-- **What the server may do when deeds meet `ok`.** -/
def serving (S : Site) (fuel : ℕ) (ok : Deed → Server.State (Point Obj) → Prop) : Serving :=
  fun s sent s' => ∃ d : Deed, d.Possible s ∧ ok d s ∧ (d.handler S fuel).Leaves s s'
    ∧ sent = fun v => d.transmits s v

/-- What a client is still to receive. -/
def World.pending (W : World) (w : ℕ) : List (Msg (Point Obj)) :=
  W.inbox w ++ (W.server.workers w).sendq

/-! ## What clients keep to -/

/-- **A relation that clients keep to**: the snapshot establishes it, for a
game that may be sent, and every stretch keeps it. -/
structure Follows (P : Policy) (L : Dict.Length Obj) (J : Game (Point Obj) → Prop)
    (R : Game (Point Obj) → Model (Point Obj) → Prop) : Prop where
  /-- What a stretch broadcasts is received. -/
  stretch : ∀ {g g' : Game (Point Obj)} {c : Model (Point Obj)}, Sound P.fits g → g.sent = [] →
    Stretch P L g g' → R g c →
    ∃ c', Replays c g'.sent c' ∧ R g'.settled c'
  /-- The snapshot is received. -/
  snapshot : ∀ {g : Game (Point Obj)}, Sound P.fits g → J g →
    ∃ c, Replays .fresh [snapshot g] c ∧ R g c
  /-- What is said makes no difference. -/
  said : ∀ {g : Game (Point Obj)} {call : Server.Call (Point Obj)},
    J (g.settled.say (fun _ => call)).settled →
    J g.settled

section Follows

variable {P : Policy} {L : Dict.Length Obj} {J : Game (Point Obj) → Prop}
  {R : Game (Point Obj) → Model (Point Obj) → Prop} {g g' : Game (Point Obj)}
  {c : Model (Point Obj)}

theorem Follows.spell (hR : Follows P L J R) {ms : List (Msg (Point Obj))} (hs : Spell P L g ms g')
    (h : Sound P.fits g) (hsent : g.sent = []) (hc : R g c) : ∃ c', Replays c ms c' ∧ R g' c' := by
  induction hs generalizing c with
  | nil g => exact ⟨c, .nil c, hc⟩
  | cons hs _ ih =>
    obtain ⟨c₁, hreplays, hc₁⟩ := hR.stretch h hsent hs hc
    obtain ⟨c', hreplays', hc'⟩ := ih (h.chain hs.chain).settled rfl hc₁
    exact ⟨c', hreplays.append hreplays', hc'⟩

theorem Follows.text (hR : Follows P L J R) {call : Server.Call (Point Obj)}
    (hcall : call.isText = true) (h : Sound P.fits g) (hsent : g.sent = []) (hc : R g c) :
    ∃ c', Replays c (g.say (fun _ => call)).sent c' ∧ R (g.say (fun _ => call)).settled c' :=
  hR.stretch h hsent (.still (.single (.say hcall)) (fun _ _ hp => hp)) hc

end Follows

/-! ## What every run keeps -/

/-- **The clients are in step**: whoever is logged in will have in `R` with
the game what they then have, when everything has been received. -/
structure Synced (P : Policy) (R : Game (Point Obj) → Model (Point Obj) → Prop) (W : World) :
    Prop where
  /-- The game is sound. -/
  manned : Manned P W.server
  /-- The tables agree. -/
  seats : Seats W.server
  /-- A worker that was not made yet is a guest. -/
  unmade : ∀ w, W.server.nextWorker ≤ w → (W.server.workers w).player = none
  /-- A guest was told nothing. -/
  guest : ∀ w, (W.server.workers w).player = none →
    W.inbox w = [] ∧ (W.server.workers w).sendq = [] ∧ W.client w = .fresh
  /-- The others receive what they are told. -/
  follows : ∀ w, W.server.LoggedIn w → ∃ c, Replays (W.client w) (W.pending w) c ∧ R W.server.game c

section Synced

variable {P : Policy} {L : Dict.Length Obj} {J : Game (Point Obj) → Prop}
  {R : Game (Point Obj) → Model (Point Obj) → Prop} {W : World}

/-- **A step of the server** keeps the clients in step, if whoever comes may
be sent the game. -/
theorem Synced.serve (hR : Follows P L J R) (h : Synced P R W) {sent : ℕ → List (Msg (Point Obj))}
    {s' : Server.State (Point Obj)} (hs : Serves P L W.server sent s')
    (hJ : (∃ w, s'.LoggedIn w ∧ ¬W.server.LoggedIn w) → J s'.game) :
    Synced P R ⟨s', fun w => W.inbox w ++ sent w, W.client⟩ := by
  refine ⟨hs.manned, hs.seats, hs.unmade, fun w hw => ?_, fun w hw => ?_⟩
  · obtain ⟨hguest, hquiet⟩ := hs.guest w hw
    obtain ⟨hinbox, hsendq, hfresh⟩ := h.guest w hguest
    obtain ⟨hsent, hsendq'⟩ := hquiet hsendq
    refine ⟨?_, hsendq', hfresh⟩
    show W.inbox w ++ sent w = []
    rw [hinbox, hsent]
    rfl
  · have hpending : ∀ ms, sent w ++ (s'.workers w).sendq = (W.server.workers w).sendq ++ ms →
        (W.inbox w ++ sent w) ++ (s'.workers w).sendq = W.pending w ++ ms := fun ms hms => by
      unfold World.pending
      rw [List.append_assoc, hms, List.append_assoc]
    show ∃ c, Replays (W.client w) ((W.inbox w ++ sent w) ++ (s'.workers w).sendq) c ∧ R s'.game c
    cases hs.delivers with
    | cast ms hspell hqueue =>
      obtain ⟨hin, hq⟩ := hqueue w hw
      obtain ⟨c, hreplays, hc⟩ := h.follows w hin
      obtain ⟨c', hreplays', hc'⟩ := hR.spell (hspell ⟨w, hin⟩) h.manned.sound h.manned.sent hc
      rw [hpending ms hq]
      exact ⟨c', hreplays.append hreplays', hc'⟩
    | welcome v g hcall hguest hsound hspell hgame hself hothers =>
      have hsettled : Sound P.fits g.settled := hsound.settled
      rw [hgame]
      by_cases hv : w = v
      · -- whoever comes has received nothing, and is sent the game
        subst hv
        obtain ⟨hinbox, hsendq, hfresh⟩ := h.guest w hguest
        have hJ' : J g.settled :=
          hR.said (hgame ▸ hJ ⟨w, hw, fun hin => h.seats.player_ne_none hin hguest⟩)
        obtain ⟨c, hreplays, hc⟩ := hR.snapshot hsettled hJ'
        obtain ⟨c', hreplays', hc'⟩ := hR.text hcall hsettled rfl hc
        refine ⟨c', ?_, hc'⟩
        rw [hpending _ hself]
        unfold World.pending
        rw [hinbox, hsendq, hfresh]
        exact hreplays.append hreplays'
      · obtain ⟨hin, hq⟩ := hothers w hv hw
        obtain ⟨c, hreplays, hc⟩ := h.follows w hin
        obtain ⟨c₁, hreplays₁, hc₁⟩ :=
          hR.stretch h.manned.sound h.manned.sent (hspell ⟨w, hin⟩) hc
        obtain ⟨c', hreplays', hc'⟩ := hR.text hcall hsettled rfl hc₁
        rw [hpending _ hq]
        exact ⟨c', hreplays.append (hreplays₁.append hreplays'), hc'⟩

/-- **A client that receives a message** stays in step. -/
theorem Synced.receive (h : Synced P R W) {w : ℕ} {m : Msg (Point Obj)}
    {ms : List (Msg (Point Obj))} {c : Model (Point Obj)} (hinbox : W.inbox w = m :: ms)
    (hr : (W.client w).receive m = .ok c) :
    Synced P R ⟨W.server, Function.update W.inbox w ms, Function.update W.client w c⟩ := by
  refine ⟨h.manned, h.seats, h.unmade, fun v hv => ?_, fun v hv => ?_⟩
  · have hne : v ≠ w := by
      rintro rfl
      rw [(h.guest v hv).1] at hinbox
      cases hinbox
    obtain ⟨hempty, hsendq, hfresh⟩ := h.guest v hv
    exact ⟨(Function.update_of_ne hne _ _).trans hempty, hsendq,
      (Function.update_of_ne hne _ _).trans hfresh⟩
  · obtain ⟨c', hreplays, hc'⟩ := h.follows v hv
    refine ⟨c', ?_, hc'⟩
    show Replays (Function.update W.client w c v)
      (Function.update W.inbox w ms v ++ (W.server.workers v).sendq) c'
    rcases eq_or_ne v w with rfl | hne
    · rw [Function.update_self, Function.update_self]
      unfold World.pending at hreplays
      rw [hinbox] at hreplays
      cases hreplays with
      | cons _ hr' hrest =>
        obtain rfl := Except.ok.inj (hr.symm.trans hr')
        exact hrest
    · rw [Function.update_of_ne hne, Function.update_of_ne hne]
      exact hreplays

/-- A server that nobody has connected to. -/
theorem synced_opening (hP : P.fits = Server.Kind.Below) (S : Site) (games : List Bytes) :
    Synced P R (.start (Server.State.opening S games)) := by
  refine ⟨?_, (Server.inv_start _).seats, fun _ _ => rfl, fun _ _ => ⟨rfl, rfl, rfl⟩,
    fun w hw => absurd rfl ((Server.inv_start _).seats.player_ne_none hw)⟩
  exact (Server.manned_opening S games (Server.hosts_of_below (P := Policy.shipped) rfl) trivial
    (fun _ => trivial)).refit hP.symm

/-- **In every world the clients are in step.** -/
theorem synced_of_reaches {step : Serving} {s₀ : Server.State (Point Obj)} (hR : Follows P L J R)
    (hstep : ∀ {W : World} {sent s'}, Synced P R W → step W.server sent s' →
      Serves P L W.server sent s' ∧ ((∃ w, s'.LoggedIn w ∧ ¬W.server.LoggedIn w) → J s'.game))
    (h₀ : Synced P R (.start s₀)) (hW : Reached step s₀ W) : Synced P R W := by
  induction hW with
  | start => exact h₀
  | serve _ hs ih =>
    obtain ⟨hserves, hJ⟩ := hstep ih hs
    exact ih.serve hR hserves hJ
  | receive _ _ hinbox hr ih => exact ih.receive hinbox hr

end Synced

/-! ## Runs that are carried out -/

section Serve

variable {S : Site} {fuel : ℕ}

/-- The deed is no login of a player, and sends nothing. -/
def ByGuest (s : Server.State (Point Obj)) : Deed → Prop
  | .session (.login w _ _ _ _ _) => (s.workers w).player = none
  | .transmit _ _ => False
  | _ => True

instance (s : Server.State (Point Obj)) : (d : Deed) → Decidable (ByGuest s d)
  | .session (.connect _ _) => .isTrue trivial
  | .session (.login w _ _ _ _ _) => inferInstanceAs (Decidable ((s.workers w).player = none))
  | .session (.chat _ _) => .isTrue trivial
  | .session (.disconnect _) => .isTrue trivial
  | .act _ _ _ _ _ => .isTrue trivial
  | .transmit _ _ => .isFalse id

theorem once_of_byGuest {s : Server.State (Point Obj)} {d : Deed} (h : ByGuest s d) :
    d.Once S s := by
  cases d with
  | session e =>
    rintro - w name pass r g b rfl
    exact h
  | act _ _ _ _ _ => trivial
  | transmit _ _ => trivial

/-- The server of a world is in a state that a run of deeds reaches. -/
theorem played_of_reached {ok : Deed → Server.State (Point Obj) → Prop}
    {s₀ : Server.State (Point Obj)} {W : World} (hW : Reached (serving S fuel ok) s₀ W) :
    Server.Played S fuel (fun _ _ => True) s₀ W.server := by
  induction hW with
  | start => exact .start
  | serve _ hs ih =>
    obtain ⟨d, hd, -, hl, -⟩ := hs
    exact .deed d ih hd trivial hl
  | receive _ _ _ _ ih => exact ih

/-- What the server may do in the worlds a run reaches. -/
theorem Reached.mono {step step' : Serving} {s₀ : Server.State (Point Obj)} {W : World}
    (h : ∀ {W sent s'}, Reached step s₀ W → step W.server sent s' → step' W.server sent s')
    (hW : Reached step s₀ W) : Reached step' s₀ W := by
  induction hW with
  | start => exact .start
  | serve hW hs ih => exact .serve ih (h hW hs)
  | receive w _ hinbox hr ih => exact .receive w ih hinbox hr

/-- Carry out these deeds, one after the other. -/
def serveAll (S : Site) (fuel : ℕ) :
    List Deed → Server.State (Point Obj) → Option (Server.State (Point Obj))
  | [], s => some s
  | d :: ds, s =>
    if d.Possible s ∧ ByGuest s d then
      match d.handler S fuel s with
      | .ok _ s' => serveAll S fuel ds s'
      | .error _ s' => serveAll S fuel ds s'
      | .timeout => none
    else none

/-- What is carried out is a run in which nobody receives anything. -/
theorem reaches_of_serveAll {ok : Deed → Server.State (Point Obj) → Prop}
    {s₀ : Server.State (Point Obj)} {ds : List Deed} {s s' : Server.State (Point Obj)}
    (hok : ∀ d ∈ ds, ∀ s, ByGuest s d → ok d s) (hs : Reached (serving S fuel ok) s₀ (.start s))
    (h : serveAll S fuel ds s = some s') : Reached (serving S fuel ok) s₀ (.start s') := by
  induction ds generalizing s with
  | nil =>
    obtain rfl := Option.some.inj h
    exact hs
  | cons d ds ih =>
    unfold serveAll at h
    split_ifs at h with hd
    have hserve : ∀ t, (d.handler S fuel).Leaves s t →
        Reached (serving S fuel ok) s₀ (.start t) := fun t hl => by
      have hquiet : ∀ v, d.transmits s v = [] := fun v => by
        cases d with
        | transmit _ _ => exact absurd hd.2 id
        | _ => rfl
      have hworld : (⟨t, fun v => [] ++ d.transmits s v, fun _ => .fresh⟩ : World) = .start t :=
        congrArg (fun inbox => (⟨t, inbox, fun _ => .fresh⟩ : World)) (funext hquiet)
      exact hworld ▸ Reached.serve hs ⟨d, hd.1, hok d List.mem_cons_self s hd.2, hl, rfl⟩
    have hrest : ∀ d' ∈ ds, ∀ s, ByGuest s d' → ok d' s := fun d' hd' =>
      hok d' (List.mem_cons_of_mem d hd')
    split at h
    · next t hok' => exact ih hrest (hserve t (Or.inl ⟨_, hok'⟩)) h
    · next t herr => exact ih hrest (hserve t (Or.inr ⟨_, herr⟩)) h
    · cases h

/-- A run whose last state is as it is found to be, and whose deeds are as they
have to be. -/
theorem exists_reaches_of (ok : Deed → Server.State (Point Obj) → Prop) (S : Site) (fuel : ℕ)
    (s₀ : Server.State (Point Obj)) (ds : List Deed) {Q : Server.State (Point Obj) → Prop}
    [DecidablePred Q] (hok : ∀ d ∈ ds, ∀ s, ByGuest s d → ok d s)
    (h : (serveAll S fuel ds s₀).any (fun s => decide (Q s)) = true) :
    ∃ s, Reached (serving S fuel ok) s₀ (.start s) ∧ Q s := by
  obtain ⟨s, hs, hQ⟩ := (Option.any_eq_true _ _).mp h
  exact ⟨s, reaches_of_serveAll hok .start hs, of_decide_eq_true hQ⟩

/-- **A run whose last state is as it is found to be**, and in which nobody
has received anything. -/
theorem exists_reaches (S : Site) (fuel : ℕ) (s₀ : Server.State (Point Obj)) (ds : List Deed)
    {Q : Server.State (Point Obj) → Prop} [DecidablePred Q]
    (h : (serveAll S fuel ds s₀).any (fun s => decide (Q s)) = true) :
    ∃ s, Reached (serving S fuel (fun d s => d.Once S s)) s₀ (.start s) ∧ Q s :=
  exists_reaches_of _ S fuel s₀ ds (fun _ _ _ => once_of_byGuest) h

end Serve

end Client

end Felt
