import Felt.Data.Feed
import Felt.Server.Play

/-!
# The order of broadcasts

What the server broadcasts and who logs in when make a feed, and every worker
that is logged in has been queued what it has heard of that feed: its snapshot
first, then every broadcast, once and in order. What a worker sends is the
beginning of what it was queued.

Nothing here depends on what a request does. It may be any action of the
game's, with whatever broadcasts; `Happening` is a run's step with that.

The record is kept beside the run, and nothing in the server depends on it. What
a worker is queued at a step is its news (`Happening.news`): what was cast, if it
is logged in, and the snapshot and what follows, if it has just been welcomed.
`Stepped` says that of one step, and `Told` of the whole run. That two workers
hear the same from some point on is then a fact about feeds (`Felt.Data.Feed`),
in which there are no workers and no queues.
-/

namespace Felt

namespace Server

open Box (Point)

open Feed (Entry casts heard Joins)

/-! ## Who is told -/

section Told

variable {α : Type} {s s' t : State α}

/-- **`w` is logged in**: somebody is logged in under some name, and it is
`w`. -/
def State.LoggedIn (s : State α) (w : ℕ) : Prop := ∃ n, s.players.get n = some w

instance (w : ℕ) : Decidable (s.LoggedIn w) :=
  decidable_of_iff (w ∈ s.players.values) Dict.mem_values

theorem State.LoggedIn.of_players {w : ℕ} (h : t.LoggedIn w) (ht : t.players = s.players) :
    s.LoggedIn w := by
  unfold State.LoggedIn at h ⊢
  rw [← ht]
  exact h

theorem loggedIn_congr (ht : t.players = s.players) (w : ℕ) : t.LoggedIn w ↔ s.LoggedIn w :=
  ⟨fun h => h.of_players ht, fun h => h.of_players ht.symm⟩

theorem Seats.player_ne_none (hi : Seats s) {w : ℕ} (h : s.LoggedIn w) :
    (s.workers w).player ≠ none := by
  obtain ⟨n, hn⟩ := h
  exact (hi.session n w hn).2.2

theorem Seats.registered (hi : Seats s) {w : ℕ} (h : s.LoggedIn w) : s.Registered w := by
  obtain ⟨n, hn⟩ := h
  exact (hi.session n w hn).1

/-- Whoever is logged in stands in `_players` once. -/
theorem Seats.count_players (hi : Seats s) (w : ℕ) :
    s.players.values.count w = if s.LoggedIn w then 1 else 0 := by
  have hnodup : s.players.values.Nodup := Dict.nodup_values (fun n n' v hn hn' => by
    rw [← (hi.session n v hn).2.1, (hi.session n' v hn').2.1])
  split_ifs with hw
  · exact List.count_eq_one_of_mem hnodup (Dict.mem_values.mpr hw)
  · exact List.count_eq_zero.mpr (fun hmem => hw (Dict.mem_values.mp hmem))

/-- **What is broadcast is queued once for whoever is logged in.** -/
theorem Seats.sendq_settle (hi : Seats s) (ht : t.players = s.players) (g : Game α) (w : ℕ) :
    ((t.settle g).workers w).sendq
      = (t.workers w).sendq ++ if s.LoggedIn w then g.sent else [] := by
  rw [workers_settle, ht, hi.count_players]
  split_ifs
  · refine congrArg ((t.workers w).sendq ++ ·) ?_
    exact List.flatMap_singleton' g.sent
  · refine congrArg ((t.workers w).sendq ++ ·) ?_
    exact List.flatMap_eq_nil_iff.mpr (fun _ _ => rfl)

end Told

/-! ## What is broadcast -/

section Sends

variable {α : Type} {s s' : State α}

/-- The broadcasts of a method of the game's. -/
def sentBy {β : Type} (x : Action α β) (g : Game α) : List (Msg α) :=
  match x g with
  | .ok _ g' => g'.sent
  | .error _ g' => g'.sent
  | .timeout => []

/-- The broadcasts of `unregister`. -/
def State.leaveSends (s : State α) (w : ℕ) : List (Msg α) :=
  match s.players.get (s.workers w).name, (s.workers w).player with
  | some _, some p => sentBy (Player.disconnect p) s.game
  | _, _ => []

/-- **What is queued when a connection ends.** -/
theorem Seats.sendq_unregister (hi : Seats s) {w : ℕ} (hl : (unregister w).Leaves s s') (v : ℕ) :
    (s'.workers v).sendq
      = (s.workers v).sendq ++ if s.LoggedIn v then s.leaveSends w else [] := by
  unfold State.leaveSends
  rcases hname : s.players.get (s.workers w).name with _ | u
  · rw [hl.of_ok (unregister_guest hname), ite_self, List.append_nil]
    rfl
  · rcases hp : (s.workers w).player with _ | p
    · rw [hl.of_error (unregister_error hname hp), ite_self, List.append_nil]
    · obtain ⟨_, g, hg, -⟩ := Player.disconnect_returns p s.game
      have hsome : s.players.get (s.workers w).name ≠ none := by
        rw [hname]
        nofun
      have hsent : sentBy (Player.disconnect p) s.game = g.sent := by
        unfold sentBy
        rw [hg]
      rw [hl.of_ok (unregister_player hsome hp hg)]
      show _ = _ ++ if s.LoggedIn v then sentBy (Player.disconnect p) s.game else []
      rw [hsent]
      exact hi.sendq_settle (t := s.parted w) rfl g v

end Sends

/-! ## What happens -/

/-- **What happens on a server**, whatever the requests do. -/
inductive Happening where
  /-- A connection, a login, a chat message, or the end of a connection. -/
  | session (e : Event (Point Obj))
  /-- A worker receives a request, which is given the player of the worker. -/
  | request (w : ℕ) (x : Option ℕ → Action (Point Obj) Unit)
  /-- A worker sends the first message of its queue, and the socket accepts it
  or not. -/
  | transmit (w : ℕ) (accepted : Bool)

namespace Happening

variable (S : Site) (s : State (Point Obj))

/-- What the server does then. -/
def handler : Happening → Handler (Point Obj) Unit
  | .session e => perform S e
  | .request w x => do
    let s ← Run.get
    Run.xpcall (onGame (x (s.workers w).player)) (fun _ => disconnect w)
  | .transmit w accepted => sendOne w accepted

/-- What is received is received by the worker of a socket, and so for what is
sent. -/
def Possible : Happening → Prop
  | .session e => e.Possible s
  | .request w _ => s.Registered w
  | .transmit w _ => s.Registered w

/-- Nobody logs in who is logged in already. -/
def LogsInOnce (s : State (Point Obj)) : Happening → Prop
  | .session e => Server.LogsInOnce S e s
  | _ => True

/-- **What is broadcast, and who is welcomed**, in that order: a login that
passes the checks has the new player announced to the others, then the
snapshot is queued, and then everybody is told. -/
def log : Happening → List (Entry ℕ (Msg (Point Obj)))
  | .session (.connect _ _) => []
  | .session (.login w (.string name) pass r g b) =>
    if S.refuses pass = true ∨ (s.players.get name).isSome = true then
      (s.leaveSends w).map .cast
    else
      match addPlayer S.length name r g b s.game with
      | .ok _ g' =>
        let welcomed := { g' with sent := [] }
        g'.sent.map .cast ++ .join w (snapshot welcomed)
          :: (sentBy (message (formatString name ++ bytes " joins the game.")) welcomed).map .cast
      | _ => []
  | .session (.login w _ _ _ _ _) => (s.leaveSends w).map .cast
  | .session (.chat w text) =>
    (sentBy (send (fun _ => .chat (s.workers w).name text)) s.game).map .cast
  | .session (.disconnect w) => (s.leaveSends w).map .cast
  | .request w x =>
    match x (s.workers w).player s.game with
    | .ok _ g => g.sent.map .cast
    | .error _ g => (g.sent ++ (s.settle g).leaveSends w).map .cast
    | .timeout => []
  | .transmit w accepted =>
    if (s.workers w).sendq = [] ∨ accepted = true then []
    else ((s.popped w).leaveSends w).map .cast

/-- What is left of the queue of `v`, before anything is queued. -/
def rest (v : ℕ) : Happening → List (Msg (Point Obj))
  | .transmit w _ => if v = w then (s.workers v).sendq.drop 1 else (s.workers v).sendq
  | _ => (s.workers v).sendq

/-- What `v` sends. -/
def transmits (v : ℕ) : Happening → List (Msg (Point Obj))
  | .transmit w accepted => if v = w ∧ accepted = true then (s.workers v).sendq.take 1 else []
  | _ => []

end Happening

/-- **A record of a run**: the feed, and what each worker was queued and has
sent. -/
structure Ledger where
  /-- What was broadcast, and who was welcomed. -/
  log : List (Entry ℕ (Msg (Point Obj)))
  /-- Everything that was queued for a worker. -/
  queued : ℕ → List (Msg (Point Obj))
  /-- Everything a worker has sent. -/
  transmitted : ℕ → List (Msg (Point Obj))

/-- The record of a run in which nothing has happened. -/
def Ledger.empty : Ledger := ⟨[], fun _ => [], fun _ => []⟩

/-- **What `d` adds to the record**, when the server goes from `s` to `s'`:
what is queued is what stands in a queue behind what was left of it. -/
def Ledger.record (S : Site) (d : Happening) (s s' : State (Point Obj)) (l : Ledger) : Ledger where
  log := l.log ++ d.log S s
  queued w := l.queued w ++ (s'.workers w).sendq.drop (d.rest s w).length
  transmitted w := l.transmitted w ++ d.transmits s w

/-- **What a run reaches, with its record**, when everything that happens meets
`ok`. -/
inductive Recorded (S : Site) (ok : Happening → State (Point Obj) → Prop)
    (s₀ : State (Point Obj)) : State (Point Obj) → Ledger → Prop where
  /-- The state it starts in. -/
  | start : Recorded S ok s₀ s₀ Ledger.empty
  /-- Something happens. -/
  | happens {s s' : State (Point Obj)} {l : Ledger} (d : Happening) (hs : Recorded S ok s₀ s l)
      (hd : d.Possible s) (hok : ok d s) (hl : (d.handler S).Leaves s s') :
      Recorded S ok s₀ s' (l.record S d s s')

/-! ## What one step does -/

section Step

variable {S : Site} {s s' : State (Point Obj)} {d : Happening} {w : ℕ}

/-- What is queued for `v` when `d` happens: whoever is logged in is queued
what is cast, and whoever is welcomed what they hear. -/
def Happening.news (S : Site) (s : State (Point Obj)) (d : Happening) (v : ℕ) :
    List (Msg (Point Obj)) :=
  if s.LoggedIn v then casts (d.log S s) else heard v (d.log S s)

/-- **What `d` does to queues and sessions.** -/
structure Stepped (S : Site) (s : State (Point Obj)) (d : Happening) (s' : State (Point Obj)) :
    Prop where
  /-- The tables still agree. -/
  seats : Seats s'
  /-- At least as many workers. -/
  nextWorker : s.nextWorker ≤ s'.nextWorker
  /-- The news stand behind what was left of the queues. -/
  sendq : ∀ v, (s'.workers v).sendq = d.rest s v ++ d.news S s v
  /-- Whoever is logged in was, or is welcomed. -/
  loggedIn : ∀ v, s'.LoggedIn v → s.LoggedIn v ∨ Joins v (d.log S s)
  /-- A guest is welcomed, who has a player then. -/
  joins : ∀ v, Joins v (d.log S s) →
    s.Registered v ∧ (s.workers v).player = none ∧ (s'.workers v).player ≠ none
  /-- What they are told first is a snapshot. -/
  snapshots : ∀ v m, .join v m ∈ d.log S s → ∃ g, m = snapshot g
  /-- All others have the player they had. -/
  player : ∀ v, ¬Joins v (d.log S s) → (s'.workers v).player = (s.workers v).player
  /-- Whoever is registered was and has sent what is not left, or is a new
  guest. -/
  registered : ∀ v, s'.Registered v →
    s.Registered v ∧ d.transmits s v ++ d.rest s v = (s.workers v).sendq
      ∨ (s'.workers v).player = none

/-- A step that welcomes nobody. -/
theorem Stepped.of_casts (ms : List (Msg (Point Obj))) (hlog : d.log S s = ms.map .cast)
    (hseats : Seats s') (hnext : s.nextWorker ≤ s'.nextWorker)
    (hsendq : ∀ v, (s'.workers v).sendq = d.rest s v ++ if s.LoggedIn v then ms else [])
    (hloggedIn : ∀ v, s'.LoggedIn v → s.LoggedIn v)
    (hplayer : ∀ v, (s'.workers v).player = (s.workers v).player)
    (hreg : ∀ v, s'.Registered v →
      s.Registered v ∧ d.transmits s v ++ d.rest s v = (s.workers v).sendq) :
    Stepped S s d s' where
  seats := hseats
  nextWorker := hnext
  sendq v := by
    unfold Happening.news
    rw [hsendq, hlog, Feed.casts_map_cast, Feed.heard_of_not_joins (Feed.not_joins_map_cast v ms)]
  loggedIn v hv := Or.inl (hloggedIn v hv)
  joins v hv := by
    rw [hlog] at hv
    exact absurd hv (Feed.not_joins_map_cast v ms)
  snapshots v m hm := by
    rw [hlog] at hm
    exact absurd ⟨m, hm⟩ (Feed.not_joins_map_cast v ms)
  player v _ := hplayer v
  registered v hv := Or.inl (hreg v hv)

/-- A step that ends the connection of `w`. What was queued up to there is
`ms`, and `t` the state then. -/
theorem Stepped.of_unregister {t : State (Point Obj)} (ms : List (Msg (Point Obj)))
    (hi : Seats s) (hw : s.Registered w) (ht : SameTables s t)
    (hlog : d.log S s = (ms ++ t.leaveSends w).map Entry.cast)
    (hsendq : ∀ v, (t.workers v).sendq = d.rest s v ++ if s.LoggedIn v then ms else [])
    (hrest : ∀ v, v ≠ w → d.transmits s v ++ d.rest s v = (s.workers v).sendq)
    (hl : (unregister w).Leaves t s') : Stepped S s d s' := by
  have hit := hi.sameTables ht
  have hgone := gone_of_unregister hit (ht.registered.mpr hw) hl
  refine .of_casts _ hlog (hit.gone (ht.registered.mpr hw) hgone) ?_ (fun v => ?_) (fun v hv => ?_)
    (fun v => ?_) (fun v hv => ?_)
  · rw [hgone.nextWorker, ht.nextWorker]
  · rw [hit.sendq_unregister hl, hsendq]
    by_cases hv : s.LoggedIn v
    · rw [if_pos hv, if_pos hv, if_pos ((loggedIn_congr ht.players v).mpr hv), List.append_assoc]
    · rw [if_neg hv, if_neg hv, if_neg (fun h => hv ((loggedIn_congr ht.players v).mp h)),
        List.append_nil]
  · obtain ⟨n, hn⟩ := hv
    exact (loggedIn_congr ht.players v).mp ⟨n, ((hgone.players n v).mp hn).1⟩
  · rw [hgone.player, ht.player]
  · obtain ⟨hv', hne⟩ := (hgone.registered (ht.registered.mpr hw) v).mp hv
    exact ⟨ht.registered.mp hv', hrest v hne⟩

/-- **A connection ends**, and nothing else happens. -/
theorem Stepped.of_leave (hi : Seats s) (hw : s.Registered w)
    (hlog : d.log S s = (s.leaveSends w).map .cast) (hrest : ∀ v, d.rest s v = (s.workers v).sendq)
    (htransmits : ∀ v, d.transmits s v = []) (hl : (unregister w).Leaves s s') :
    Stepped S s d s' := by
  refine .of_unregister [] hi hw (.refl s) hlog (fun v => ?_) (fun v _ => ?_) hl
  · rw [hrest, ite_self, List.append_nil]
  · rw [htransmits, hrest, List.nil_append]

/-- The feed of a login past the checks. -/
theorem log_welcome {name : Bytes} {pass r g b : Value (Point Obj)} (hpass : S.refuses pass = false)
    (hfree : s.players.get name = none) {p : ℕ} {g' : Game (Point Obj)}
    (hg : addPlayer S.length name r g b s.game = .ok p g') :
    Happening.log S s (.session (.login w (.string name) pass r g b))
      = g'.sent.map .cast ++ [.join w (snapshot { g' with sent := [] }),
        .cast (pack { g' with sent := [] } (Game.known { g' with sent := [] })
          (.message (formatString name ++ bytes " joins the game.")))] := by
  show (if S.refuses pass = true ∨ (s.players.get name).isSome = true then _ else _) = _
  rw [if_neg, hg]
  · rfl
  · rw [hpass, hfree]
    exact fun h => h.elim nofun nofun

/-- Who is logged in when `w` is welcomed. -/
theorem loggedIn_welcomed {name : Bytes} (hfree : s.players.get name = none) (p : ℕ)
    (g : Game (Point Obj)) (v : ℕ) :
    (s.welcomed w p name g).LoggedIn v ↔ v = w ∨ s.LoggedIn v := by
  unfold State.LoggedIn
  rw [welcomed_players]
  constructor
  · rintro ⟨n, hn⟩
    rw [Dict.get_set] at hn
    split_ifs at hn
    · exact Or.inl (Option.some.inj hn).symm
    · exact Or.inr ⟨n, hn⟩
  · rintro (rfl | ⟨n, hn⟩)
    · exact ⟨name, Dict.get_set_self _ _ _⟩
    · refine ⟨n, ?_⟩
      rw [Dict.get_set_of_ne _ _ (fun h => ?_), hn]
      rw [h, hfree] at hn
      cases hn

theorem Seats.welcomed (hi : Seats s) {name : Bytes} (hw : s.Registered w)
    (hguest : (s.workers w).player = none) (hfree : s.players.get name = none) (p : ℕ)
    (g : Game (Point Obj)) : Seats (s.welcomed w p name g) := by
  refine hi.entered hw hguest hfree (welcomed_clients _ _ _ _ _) (welcomed_players _ _ _ _ _)
    (welcomed_nextWorker _ _ _ _ _) (welcomed_socket _ _ _ _ _) (welcomed_name _ _ _ _ _) ?_
    (fun v hv => ?_)
  · rw [welcomed_player, if_pos rfl]
    nofun
  · rw [welcomed_player, if_neg hv]

/-- **What is queued when `w` is welcomed**: for the others, what the game has
broadcast; for `w`, the snapshot; and for all of them who has joined. -/
theorem sendq_welcomed (hi : Seats s) {name : Bytes} (hw : s.Registered w)
    (hguest : (s.workers w).player = none) (hfree : s.players.get name = none) (p : ℕ)
    (g : Game (Point Obj)) (v : ℕ) :
    ((s.welcomed w p name g).workers v).sendq = (s.workers v).sendq
      ++ ((if s.LoggedIn v then g.sent else [])
        ++ ((if v = w then [snapshot { g with sent := [] }] else [])
          ++ if v = w ∨ s.LoggedIn v then [pack { g with sent := [] }
            (Game.known { g with sent := [] })
            (.message (formatString name ++ bytes " joins the game."))] else [])) := by
  have hseats := hi.welcomed hw hguest hfree p g
  have hlast := hseats.sendq_settle
    (t := (State.enter w p name (s.settle g)).enqueue (snapshot { g with sent := [] }) w)
    (sameTables_welcomed s w p name g).players.symm
    (Game.say (fun _ => .message (formatString name ++ bytes " joins the game."))
      { g with sent := [] }) v
  rw [if_congr (loggedIn_welcomed hfree p g v) rfl rfl] at hlast
  refine hlast.trans ?_
  rw [← List.append_assoc, ← List.append_assoc]
  refine congrArg (· ++ _) ?_
  have hqueue : ((State.enter w p name (s.settle g)).workers v).sendq
      = (s.workers v).sendq ++ if s.LoggedIn v then g.sent else [] := by
    rw [enter_workers, ← hi.sendq_settle rfl g v]
    split_ifs with hv
    · rw [hv]
    · rfl
  rw [← hqueue]
  show ((Function.update (State.enter w p name (s.settle g)).workers w _) v).sendq = _
  rw [Function.update_apply]
  split_ifs with hv
  · rw [hv]
  · exact (List.append_nil _).symm

/-- **A login past the checks.** -/
theorem Stepped.of_welcome (hi : Seats s) {name : Bytes} {pass r g b : Value (Point Obj)}
    (hw : s.Registered w) (hguest : (s.workers w).player = none)
    (hpass : S.refuses pass = false) (hfree : s.players.get name = none) {p : ℕ}
    {g' : Game (Point Obj)} (hg : addPlayer S.length name r g b s.game = .ok p g') :
    Stepped S s (.session (.login w (.string name) pass r g b)) (s.welcomed w p name g') := by
  have hlog := log_welcome (w := w) hpass hfree hg
  have hjoins : ∀ v, Joins v (Happening.log S s (.session (.login w (.string name) pass r g b)))
      ↔ v = w := fun v => by
    rw [hlog, Feed.joins_append, or_iff_right (Feed.not_joins_map_cast v _), Feed.joins_cons_join,
      or_iff_left, eq_comm]
    rw [Feed.joins_cons_cast]
    exact Feed.not_joins_nil v
  -- the newcomer is told of the game first, and hears of nothing before that
  have hnot : ¬s.LoggedIn w := fun h => hi.player_ne_none h hguest
  refine ⟨hi.welcomed hw hguest hfree p g', (welcomed_nextWorker s w p name g').ge, fun v => ?_,
    fun v hv => ?_, fun v hv => ?_, fun v m hm => ?_, fun v hv => ?_, fun v hv => ?_⟩
  · refine (sendq_welcomed hi hw hguest hfree p g' v).trans (congrArg ((s.workers v).sendq ++ ·) ?_)
    unfold Happening.news
    rw [hlog]
    rcases eq_or_ne v w with rfl | hv
    · rw [if_neg hnot, if_pos rfl, if_pos (Or.inl rfl), if_neg hnot,
        Feed.heard_append_of_not_joins (Feed.not_joins_map_cast v _)]
      show _ = if v = v then _ else _
      rw [if_pos rfl]
      rfl
    · rw [if_neg hv, Feed.casts_append, Feed.casts_map_cast, List.nil_append]
      by_cases hin : s.LoggedIn v
      · rw [if_pos hin, if_pos hin, if_pos (Or.inr hin)]
        rfl
      · rw [if_neg hin, if_neg hin, if_neg (not_or.mpr ⟨hv, hin⟩), Feed.heard_of_not_joins]
        · rfl
        · rw [← hlog, hjoins]
          exact hv
  · exact ((loggedIn_welcomed hfree p g' v).mp hv).symm.imp_right (hjoins v).mpr
  -- only the newcomer joins, who was a guest and has a player now
  · obtain rfl := (hjoins v).mp hv
    refine ⟨hw, hguest, ?_⟩
    rw [welcomed_player, if_pos rfl]
    nofun
  · rw [hlog, List.mem_append] at hm
    rcases hm with hm | hm
    · exact absurd ⟨m, hm⟩ (Feed.not_joins_map_cast v _)
    · rcases List.mem_cons.mp hm with hm | hm
      · exact ⟨_, (Entry.join.inj hm).2⟩
      · cases List.mem_singleton.mp hm
  · rw [welcomed_player, if_neg (fun h => hv ((hjoins v).mpr h))]
  · exact Or.inl ⟨(welcomed_registered s w p name g' v).mp hv, List.nil_append _⟩

/-- **What a request or a chat message broadcasts** is queued for whoever is
logged in. -/
theorem Stepped.of_settle (hi : Seats s) {g : Game (Point Obj)}
    (hlog : d.log S s = g.sent.map .cast) (hrest : ∀ v, d.rest s v = (s.workers v).sendq)
    (htransmits : ∀ v, d.transmits s v = []) : Stepped S s d (s.settle g) := by
  have hs := SameTables.settle s g
  refine .of_casts _ hlog (hi.sameTables hs) hs.nextWorker.ge (fun v => ?_)
    (fun v => (loggedIn_congr hs.players v).mp) hs.player (fun v hv => ⟨hs.registered.mp hv, ?_⟩)
  · rw [hrest]
    exact hi.sendq_settle rfl g v
  · rw [htransmits, hrest, List.nil_append]

/-- **Somebody connects.** -/
theorem Stepped.of_joined (hi : Seats s) {socket : ℕ} {peer : Option Bytes}
    (hfresh : s.clients.get socket = none) (hunmade : (s.workers s.nextWorker).player = none)
    (hempty : (s.workers s.nextWorker).sendq = []) (hl : (register socket peer).Leaves s s') :
    Stepped S s (.session (.connect socket peer)) s' := by
  -- without a peer the socket gets no worker, and nothing else happens
  rcases peer with _ | peer
  · rw [hl.of_error (register_error socket)]
    refine .of_casts [] rfl ⟨hi.session, hi.client, hi.player⟩ le_rfl (fun v => ?_)
      (fun _ hv => hv) (fun _ => rfl) (fun v hv => ⟨hv, List.nil_append _⟩)
    rw [ite_self, List.append_nil]
    rfl
  · obtain ⟨_, hj⟩ := (register_returns socket peer).of_leaves hl
    have hworker : ∀ v, v ≠ s.nextWorker → s'.workers v = s.workers v := hj.worker
    refine ⟨hi.joined hfresh hj, by rw [hj.nextWorker]; exact Nat.le_succ _, fun v => ?_,
      fun v hv => ?_, fun v hv => absurd hv (Feed.not_joins_nil v), fun v m hm => absurd hm nofun,
      fun v _ => ?_, fun v hv => ?_⟩
    · have hnews : Happening.news S s (.session (.connect socket (some peer))) v = [] :=
        ite_self _
      rw [hnews, List.append_nil]
      show _ = (s.workers v).sendq
      rcases eq_or_ne v s.nextWorker with rfl | hv
      · rw [hj.guest, hempty]
        rfl
      · rw [hworker v hv]
    · exact Or.inl ((loggedIn_congr hj.players v).mp hv)
    · rcases eq_or_ne v s.nextWorker with rfl | hv
      · rw [hj.guest, hunmade]
        rfl
      · rw [hworker v hv]
    · rcases eq_or_ne v s.nextWorker with rfl | hne
      · rw [hj.guest]
        exact Or.inr rfl
      · refine Or.inl ⟨?_, List.nil_append _⟩
        unfold State.Registered at hv ⊢
        rw [hworker v hne, hj.clients, Dict.get_set] at hv
        split_ifs at hv
        · exact absurd (Option.some.inj hv).symm hne
        · exact hv

/-- **A request**, which may raise. -/
theorem Stepped.of_request (hi : Seats s) {x : Option ℕ → Action (Point Obj) Unit}
    (hd : s.Registered w) (hl : ((Happening.request w x).handler S).Leaves s s') :
    Stepped S s (.request w x) s' := by
  -- a request that raises is followed by the end of the connection it came on
  rcases hx : x (s.workers w).player s.game with ⟨_, g⟩ | ⟨err, g⟩ | _
  · have hrun : (Happening.request w x).handler S s = .ok () (s.settle g) := by
      show Run.xpcall (onGame (x (s.workers w).player)) _ s = _
      unfold Run.xpcall onGame
      rw [hx]
    rw [hl.of_ok hrun]
    refine .of_settle hi ?_ (fun _ => rfl) (fun _ => rfl)
    show (match x (s.workers w).player s.game with
      | .ok _ g => _
      | .error _ g => _
      | .timeout => _) = _
    rw [hx]
  · have hgame : onGame (x (s.workers w).player) s = .error (.game err) (s.settle g) := by
      unfold onGame
      rw [hx]
    have hlog : (Happening.request w x).log S s
        = (g.sent ++ (s.settle g).leaveSends w).map .cast := by
      show (match x (s.workers w).player s.game with
        | .ok _ g => _
        | .error _ g => _
        | .timeout => _) = _
      rw [hx]
    exact .of_unregister _ hi hd (.settle s g) hlog (hi.sendq_settle rfl g)
      (fun v _ => List.nil_append _) (hl.of_xpcall hgame)
  · rcases hl with ⟨_, hok⟩ | ⟨_, herr⟩
    · change Run.xpcall (onGame (x (s.workers w).player)) _ s = _ at hok
      unfold Run.xpcall onGame at hok
      rw [hx] at hok
      cases hok
    · change Run.xpcall (onGame (x (s.workers w).player)) _ s = _ at herr
      unfold Run.xpcall onGame at herr
      rw [hx] at herr
      cases herr

/-- **A worker sends** the first message of its queue, or cannot. -/
theorem Stepped.of_transmit (hi : Seats s) {accepted : Bool} (hd : s.Registered w)
    (hl : (sendOne w accepted).Leaves s s') : Stepped S s (.transmit w accepted) s' := by
  have hpop : SameTables s (s.popped w) := SameTables.mapQueue s w (List.drop 1)
  have hworkers : ∀ v, (s.popped w).workers v
      = if v = w then { s.workers w with sendq := (s.workers w).sendq.drop 1 }
        else s.workers v := fun v => Function.update_apply _ _ _ _
  have hqueue : ∀ v, ((s.popped w).workers v).sendq
      = (Happening.transmit w accepted).rest s v := fun v => by
    show _ = if v = w then (s.workers v).sendq.drop 1 else (s.workers v).sendq
    rw [hworkers]
    split_ifs with hv
    · rw [hv]
    · rfl
  change Run.Leaves (fun t => (if (s.workers w).sendq = [] then pure ()
    else Run.xpcall (transmit w accepted) (fun _ => disconnect w) : Handler (Point Obj) Unit) t)
    s s' at hl
  -- an empty queue, a message that is sent, and one at which the socket fails
  by_cases hq : (s.workers w).sendq = []
  · rw [if_pos hq] at hl
    rw [hl.of_ok (t := s) rfl]
    have hrest : ∀ v, (Happening.transmit w accepted).rest s v = (s.workers v).sendq := fun v => by
      show (if v = w then (s.workers v).sendq.drop 1 else (s.workers v).sendq) = _
      split_ifs with hv
      · rw [hv, hq]
        rfl
      · rfl
    refine .of_casts [] (if_pos (Or.inl hq)) hi le_rfl (fun v => ?_) (fun _ hv => hv)
      (fun _ => rfl) (fun v hv => ⟨hv, ?_⟩)
    · rw [hrest, ite_self, List.append_nil]
    · rw [hrest]
      show (if v = w ∧ accepted = true then (s.workers v).sendq.take 1 else []) ++ _ = _
      split_ifs with hv
      · rw [hv.1, hq]
        rfl
      · rfl
  · rw [if_neg hq] at hl
    cases accepted with
    | true =>
      rw [hl.of_ok (t := s.popped w) rfl]
      refine .of_casts [] (if_pos (Or.inr rfl)) (hi.sameTables hpop) hpop.nextWorker.ge
        (fun v => ?_) (fun v => (loggedIn_congr hpop.players v).mp) hpop.player
        (fun v hv => ⟨hpop.registered.mp hv, ?_⟩)
      · rw [hqueue, ite_self, List.append_nil]
      · show (if v = w ∧ true = true then (s.workers v).sendq.take 1 else [])
          ++ (if v = w then (s.workers v).sendq.drop 1 else (s.workers v).sendq) = _
        by_cases hv : v = w
        · rw [if_pos ⟨hv, rfl⟩, if_pos hv, List.take_append_drop]
        · rw [if_neg (fun h => hv h.1), if_neg hv, List.nil_append]
    | false =>
      have hleaves := Run.Leaves.of_xpcall (x := transmit w false) (e := ServerError.socket)
        (t := s.popped w) rfl hl
      have hlog : (Happening.transmit w false).log S s
          = ([] ++ (s.popped w).leaveSends w).map .cast :=
        if_neg (not_or.mpr ⟨hq, nofun⟩)
      refine .of_unregister _ hi hd hpop hlog (fun v => ?_) (fun v hv => ?_) hleaves
      · rw [hqueue, ite_self, List.append_nil]
      · show (if v = w ∧ false = true then (s.workers v).sendq.take 1 else [])
          ++ (if v = w then (s.workers v).sendq.drop 1 else (s.workers v).sendq) = _
        rw [if_neg (fun h => hv h.1), if_neg hv, List.nil_append]

/-- **What happens does what `Stepped` says**, if nobody logs in twice. -/
theorem stepped_of_leaves (hi : Seats s) (hunmade : (s.workers s.nextWorker).player = none)
    (hempty : (s.workers s.nextWorker).sendq = []) (hd : d.Possible s) (honce : d.LogsInOnce S s)
    (hl : (d.handler S).Leaves s s') : Stepped S s d s' := by
  cases d with
  | session e =>
    cases e with
    | connect socket peer => exact .of_joined hi hd.2 hunmade hempty hl
    | login w name pass r g b =>
      cases name with
      | string name =>
        change Run.Leaves (fun t => (if S.refuses pass then disconnect w
          else if (s.players.get name).isSome then disconnect w
          else welcome S w name r g b : Handler (Point Obj) Unit) t) s s' at hl
        have hleave : (S.refuses pass = true ∨ (s.players.get name).isSome = true) →
            (unregister w).Leaves s s' →
            Stepped S s (.session (.login w (.string name) pass r g b)) s' := fun hrefused hl =>
          .of_leave hi hd (if_pos hrefused) (fun _ => rfl) (fun _ => rfl) hl
        by_cases hpass : S.refuses pass = true
        · simp only [if_pos hpass] at hl
          exact hleave (Or.inl hpass) hl
        · by_cases hname : (s.players.get name).isSome = true
          · simp only [if_neg hpass, if_pos hname] at hl
            exact hleave (Or.inr hname) hl
          · simp only [if_neg hpass, if_neg hname] at hl
            have hpass' : S.refuses pass = false := Bool.not_eq_true _ ▸ hpass
            have hfree := Option.not_isSome_iff_eq_none.mp hname
            obtain ⟨p, g', hg, -⟩ := addPlayer_returns S.length name r g b s.game
            rw [hl.of_ok (welcome_apply S hg w)]
            exact .of_welcome hi hd (honce ⟨hpass', hfree⟩ w _ _ _ _ _ rfl) hpass' hfree hg
      | _ => exact .of_leave hi hd rfl (fun _ => rfl) (fun _ => rfl) hl
    | chat w text =>
      rw [hl.of_ok (x := chat w text) (t := s.settle _) rfl]
      exact .of_settle hi rfl (fun _ => rfl) (fun _ => rfl)
    | disconnect w => exact .of_leave hi hd rfl (fun _ => rfl) (fun _ => rfl) hl
  | request w x => exact .of_request hi hd hl
  | transmit w accepted => exact .of_transmit hi hd hl

end Step

/-! ## What a run keeps -/

section Run

variable {S : Site} {s s' : State (Point Obj)} {l : Ledger} {d : Happening}

/-- **The record is right.** -/
structure Told (s : State (Point Obj)) (l : Ledger) : Prop where
  /-- The tables agree. -/
  seats : Seats s
  /-- A worker that was not made yet is a guest. -/
  unmade : ∀ w, s.nextWorker ≤ w → (s.workers w).player = none
  /-- Nothing was queued for a guest, who was not welcomed. -/
  guest : ∀ w, (s.workers w).player = none →
    l.queued w = [] ∧ (s.workers w).sendq = [] ∧ ¬Joins w l.log
  /-- Whoever has a player was welcomed, and queued a beginning of what they
  would have heard. -/
  member : ∀ w, (s.workers w).player ≠ none →
    Joins w l.log ∧ l.queued w ≠ [] ∧ l.queued w <+: heard w l.log
  /-- Whoever is logged in was queued all of it. -/
  loggedIn : ∀ w, s.LoggedIn w → l.queued w = heard w l.log
  /-- What they were told first is a snapshot. -/
  snapshots : ∀ w m, .join w m ∈ l.log → ∃ g, m = snapshot g
  /-- What was queued was sent, or stands in the queue. -/
  queue : ∀ w, s.Registered w → l.transmitted w ++ (s.workers w).sendq = l.queued w
  /-- What was sent was queued. -/
  transmitted : ∀ w, l.transmitted w <+: l.queued w

theorem told_start (g : Game (Point Obj)) : Told (State.start g) Ledger.empty where
  seats := (inv_start g).seats
  unmade _ _ := rfl
  guest w _ := ⟨rfl, rfl, Feed.not_joins_nil w⟩
  member _ hw := absurd rfl hw
  loggedIn _ hw := absurd rfl ((inv_start g).seats.player_ne_none hw)
  snapshots _ _ hm := absurd hm List.not_mem_nil
  queue _ hw := absurd hw nofun
  transmitted _ := List.prefix_rfl

/-- What is queued is the news. -/
theorem Stepped.queued (h : Stepped S s d s') (l : Ledger) (w : ℕ) :
    (l.record S d s s').queued w = l.queued w ++ d.news S s w := by
  show l.queued w ++ _ = _
  rw [h.sendq, List.drop_left]

/-- Whoever is not told anything new. -/
theorem Happening.news_of_not {w : ℕ} (hin : ¬s.LoggedIn w)
    (hjoins : ¬Joins w (d.log S s)) : d.news S s w = [] := by
  unfold Happening.news
  rw [if_neg hin, Feed.heard_of_not_joins hjoins]

/-- Whoever is welcomed was queued what they hear. -/
theorem Told.welcomed (h : Told s l) (hs : Stepped S s d s') {w : ℕ}
    (hw : Joins w (d.log S s)) :
    (l.record S d s s').queued w = heard w (l.record S d s s').log
      ∧ (l.record S d s s').queued w ≠ [] := by
  obtain ⟨-, hguest, -⟩ := hs.joins w hw
  obtain ⟨hqueued, -, hnot⟩ := h.guest w hguest
  have hin : ¬s.LoggedIn w := fun hin => h.seats.player_ne_none hin hguest
  have heq : (l.record S d s s').queued w = heard w (d.log S s) := by
    rw [hs.queued, hqueued, List.nil_append]
    exact if_neg hin
  refine ⟨?_, ?_⟩
  · rw [heq]
    exact (Feed.heard_append_of_not_joins hnot _).symm
  · obtain ⟨m, rest, -, hheard⟩ := Feed.exists_heard hw
    rw [heq, hheard]
    exact List.cons_ne_nil _ _

/-- Whoever was logged in was queued what is cast. -/
theorem Told.kept (h : Told s l) (hs : Stepped S s d s') {w : ℕ} (hw : s.LoggedIn w) :
    (l.record S d s s').queued w = heard w (l.record S d s s').log := by
  have hjoins := (h.member w (h.seats.player_ne_none hw)).1
  rw [hs.queued, h.loggedIn w hw]
  refine Eq.trans ?_ (Feed.heard_append_of_joins hjoins _).symm
  exact congrArg (heard w l.log ++ ·) (if_pos hw)

/-- **Every step keeps the record right.** -/
theorem Told.stepped (h : Told s l) (hd : d.Possible s) (hs : Stepped S s d s') :
    Told s' (l.record S d s s') where
  seats := hs.seats
  unmade w hw := by
    -- only workers that were made can be welcomed
    have hnot : ¬Joins w (d.log S s) := fun hjoins => by
      have hlt := (h.seats.client _ w (hs.joins w hjoins).1).2
      have := hs.nextWorker
      omega
    rw [hs.player w hnot]
    exact h.unmade w (hs.nextWorker.trans hw)
  guest w hw := by
    have hnot : ¬Joins w (d.log S s) := fun hjoins => (hs.joins w hjoins).2.2 hw
    rw [hs.player w hnot] at hw
    obtain ⟨hqueued, hsendq, hjoins⟩ := h.guest w hw
    have hnews := Happening.news_of_not (fun hin => h.seats.player_ne_none hin hw) hnot
    refine ⟨?_, ?_, fun hor => (Feed.joins_append.mp hor).elim hjoins hnot⟩
    · rw [hs.queued, hqueued, hnews]
      rfl
    -- a queue that is empty stays so, also if its worker sends
    · rw [hs.sendq, hnews, List.append_nil]
      cases d with
      | transmit v _ =>
        show (if w = v then (s.workers w).sendq.drop 1 else (s.workers w).sendq) = []
        rw [hsendq, List.drop_nil, ite_self]
      | _ => exact hsendq
  member w hw := by
    -- whoever is welcomed now starts from the snapshot; the others had a beginning of what they
    -- hear
    by_cases hnew : Joins w (d.log S s)
    · obtain ⟨heq, hne⟩ := h.welcomed hs hnew
      exact ⟨Feed.joins_append.mpr (Or.inr hnew), hne, heq ▸ List.prefix_rfl⟩
    · rw [hs.player w hnew] at hw
      obtain ⟨hjoins, hne, hprefix⟩ := h.member w hw
      have hne' : (l.record S d s s').queued w ≠ [] := by
        rw [hs.queued]
        exact fun hnil => hne (List.append_eq_nil_iff.mp hnil).1
      refine ⟨Feed.joins_append.mpr (Or.inl hjoins), hne', ?_⟩
      by_cases hin : s.LoggedIn w
      · rw [h.kept hs hin]
      · rw [hs.queued, Happening.news_of_not hin hnew, List.append_nil]
        refine hprefix.trans ?_
        show _ <+: heard w (l.log ++ d.log S s)
        rw [Feed.heard_append_of_joins hjoins]
        exact List.prefix_append _ _
  loggedIn w hw := by
    rcases hs.loggedIn w hw with hin | hnew
    · exact h.kept hs hin
    · exact (h.welcomed hs hnew).1
  snapshots w m hm := by
    rcases List.mem_append.mp hm with hm | hm
    · exact h.snapshots w m hm
    · exact hs.snapshots w m hm
  queue w hw := by
    have hrecord := hs.queued l w
    -- a worker that was registered, or one that has just connected
    rcases hs.registered w hw with ⟨hreg, hsplit⟩ | hguest
    · rw [hrecord, hs.sendq, ← h.queue w hreg, ← hsplit]
      show (l.transmitted w ++ d.transmits s w) ++ (d.rest s w ++ d.news S s w) = _
      simp only [List.append_assoc]
    · have hnot : ¬Joins w (d.log S s) := fun hjoins => (hs.joins w hjoins).2.2 hguest
      have hguest' := hguest
      rw [hs.player w hnot] at hguest'
      obtain ⟨hqueued, hsendq, -⟩ := h.guest w hguest'
      have hnews := Happening.news_of_not (fun hin => h.seats.player_ne_none hin hguest') hnot
      have hsent : l.transmitted w = [] := List.prefix_nil.mp (hqueued ▸ h.transmitted w)
      rw [hrecord, hs.sendq, hqueued, hnews]
      show (l.transmitted w ++ d.transmits s w) ++ (d.rest s w ++ []) = [] ++ []
      rw [hsent]
      cases d with
      | transmit v accepted =>
        show ([] ++ if w = v ∧ accepted = true then (s.workers w).sendq.take 1 else [])
          ++ ((if w = v then (s.workers w).sendq.drop 1 else (s.workers w).sendq) ++ []) = _
        rw [hsendq, List.take_nil, List.drop_nil, ite_self, ite_self]
        rfl
      | _ =>
        show ([] ++ []) ++ ((s.workers w).sendq ++ []) = _
        rw [hsendq]
        rfl
  transmitted w := by
    rw [hs.queued]
    show l.transmitted w ++ d.transmits s w <+: _
    have hnothing : d.transmits s w = [] →
        l.transmitted w ++ d.transmits s w <+: l.queued w ++ d.news S s w := fun hnil => by
      rw [hnil, List.append_nil]
      exact (h.transmitted w).trans (List.prefix_append _ _)
    cases d with
    | transmit v accepted =>
      -- what is sent now is the first of the queue, which was queued behind all that was sent
      by_cases hv : w = v ∧ accepted = true
      · have hreg : s.Registered w := hv.1 ▸ hd
        rw [← h.queue w hreg]
        show l.transmitted w ++ (if w = v ∧ accepted = true then _ else _) <+: _
        rw [if_pos hv, List.append_assoc]
        exact (List.prefix_append_right_inj _).mpr
          ((List.take_prefix _ _).trans (List.prefix_append _ _))
      · exact hnothing (if_neg hv)
    | _ => exact hnothing rfl

/-! ## Total order -/

/-- **Broadcasts are totally ordered.** -/
structure Ordered (s : State (Point Obj)) (l : Ledger) : Prop where
  /-- Nothing is queued for a connection before its login succeeds. -/
  guest : ∀ w, (s.workers w).player = none → l.queued w = []
  /-- What is queued first for a worker that logs in is the snapshot it is
  welcomed with. -/
  first : ∀ w, (s.workers w).player ≠ none →
    ∃ g rest, .join w (snapshot g) ∈ l.log ∧ l.queued w = snapshot g :: rest
  /-- Since it is welcomed, every broadcast is queued for a worker that is
  logged in, once and in order. -/
  heard : ∀ w, s.LoggedIn w → l.queued w = heard w l.log
  /-- Since the later of two is welcomed, the same is queued for both. -/
  common : ∀ w v, s.LoggedIn w → s.LoggedIn v → w ≠ v →
    ∃ x first l₁ l₂, l.log = l₁ ++ .join x first :: l₂
      ∧ ((x = w ∧ ¬Joins w l₁ ∧ Joins v l₁) ∨ (x = v ∧ ¬Joins v l₁ ∧ Joins w l₁))
      ∧ l.queued w = Feed.heard w (l₁ ++ [.join x first]) ++ casts l₂
      ∧ l.queued v = Feed.heard v (l₁ ++ [.join x first]) ++ casts l₂
  /-- A worker sends what it was queued, in order and without gaps. -/
  transmitted : ∀ w, l.transmitted w <+: l.queued w
  /-- What it has not sent stands in its queue. -/
  queue : ∀ w, s.Registered w → l.transmitted w ++ (s.workers w).sendq = l.queued w

theorem Told.ordered (h : Told s l) : Ordered s l where
  guest w hw := (h.guest w hw).1
  first w hw := by
    obtain ⟨hjoins, hne, hprefix⟩ := h.member w hw
    obtain ⟨m, rest, hmem, hheard⟩ := Feed.exists_heard hjoins
    obtain ⟨g, rfl⟩ := h.snapshots w m hmem
    rw [hheard] at hprefix
    rcases List.prefix_cons_iff.mp hprefix with hnil | ⟨rest', hrest, -⟩
    · exact absurd hnil hne
    · exact ⟨g, rest', hmem, hrest⟩
  heard := h.loggedIn
  common w v hw hv hne := by
    obtain ⟨x, first, l₁, l₂, hcommon⟩ := Feed.heard_common hne
      (h.member w (h.seats.player_ne_none hw)).1 (h.member v (h.seats.player_ne_none hv)).1
    refine ⟨x, first, l₁, l₂, hcommon.split, hcommon.later, ?_, ?_⟩
    · rw [h.loggedIn w hw]
      exact hcommon.left
    · rw [h.loggedIn v hv]
      exact hcommon.right
  transmitted := h.transmitted
  queue := h.queue

theorem told_of_recorded {g : Game (Point Obj)}
    (hs : Recorded S (fun d s => d.LogsInOnce S s) (State.start g) s l) : Told s l := by
  induction hs with
  | start => exact told_start g
  | happens d _ hd honce hl ih =>
    have hunmade := ih.unmade _ le_rfl
    exact ih.stepped hd (stepped_of_leaves ih.seats hunmade (ih.guest _ hunmade).2.1 hd honce hl)

end Run

/-- **Broadcasts are totally ordered and delivered exactly once**, in every
run in which nobody logs in twice on one connection. -/
theorem ordered_of_recorded (S : Site) (g : Game (Point Obj)) (s : State (Point Obj)) (l : Ledger)
    (hs : Recorded S (fun d s => d.LogsInOnce S s) (State.start g) s l) : Ordered s l :=
  (told_of_recorded hs).ordered

section Carry

variable {S : Site} {s : State (Point Obj)}

instance : (e : Event (Point Obj)) → Decidable (e.Admits S s)
  | .login _ (.string _) _ _ _ _ => inferInstanceAs (Decidable (_ ∧ _))
  | .login _ .nil _ _ _ _ => .isFalse id
  | .login _ (.boolean _) _ _ _ _ => .isFalse id
  | .login _ (.number _) _ _ _ _ => .isFalse id
  | .login _ (.ref _) _ _ _ _ => .isFalse id
  | .login _ (.foreign _) _ _ _ _ => .isFalse id
  | .connect _ _ => .isFalse id
  | .chat _ _ => .isFalse id
  | .disconnect _ => .isFalse id

instance : (e : Event (Point Obj)) → Decidable (LogsInOnce S e s)
  | .login w name pass r g b =>
    decidable_of_iff ((Event.login w name pass r g b).Admits S s → (s.workers w).player = none)
      ⟨fun h ha _ _ _ _ _ _ he => by cases he; exact h ha, fun h ha => h ha _ _ _ _ _ _ rfl⟩
  | .connect _ _ => .isTrue (fun h => h.elim)
  | .chat _ _ => .isTrue (fun h => h.elim)
  | .disconnect _ => .isTrue (fun h => h.elim)

instance : (d : Happening) → Decidable (d.Possible s)
  | .session e => inferInstanceAs (Decidable (e.Possible s))
  | .request w _ => inferInstanceAs (Decidable (s.Registered w))
  | .transmit w _ => inferInstanceAs (Decidable (s.Registered w))

instance : (d : Happening) → Decidable (d.LogsInOnce S s)
  | .session e => inferInstanceAs (Decidable (Server.LogsInOnce S e s))
  | .request _ _ => .isTrue trivial
  | .transmit _ _ => .isTrue trivial

/-- Let all of this happen, one after the other, and write it down. -/
def recordAll (S : Site) :
    List Happening → State (Point Obj) × Ledger → Option (State (Point Obj) × Ledger)
  | [], r => some r
  | d :: ds, (s, l) =>
    if d.Possible s ∧ d.LogsInOnce S s then
      match d.handler S s with
      | .ok _ s' => recordAll S ds (s', l.record S d s s')
      | .error _ s' => recordAll S ds (s', l.record S d s s')
      | .timeout => none
    else none

/-- What is written down is the record of a run. -/
theorem recorded_of_recordAll {s₀ s' : State (Point Obj)} {l l' : Ledger} {ds : List Happening}
    (hs : Recorded S (fun d s => d.LogsInOnce S s) s₀ s l)
    (h : recordAll S ds (s, l) = some (s', l')) :
    Recorded S (fun d s => d.LogsInOnce S s) s₀ s' l' := by
  induction ds generalizing s l with
  | nil =>
    obtain ⟨rfl, rfl⟩ := Prod.mk.inj (Option.some.inj h)
    exact hs
  | cons d ds ih =>
    unfold recordAll at h
    split_ifs at h with hd
    split at h
    · next hdone => exact ih (.happens d hs hd.1 hd.2 (Or.inl ⟨_, hdone⟩)) h
    · next herr => exact ih (.happens d hs hd.1 hd.2 (Or.inr ⟨_, herr⟩)) h
    · cases h

end Carry

/-- Two players log in, one of them says something, and the other is sent the
first message of their queue. -/
theorem ordered_of_transmit : ∃ (s : State (Point Obj)) (l : Ledger),
    s.players.get (bytes "a") = some 0 ∧ s.players.get (bytes "b") = some 1
      ∧ (l.transmitted 0).length = 1 ∧ 2 < (s.workers 0).sendq.length
      ∧ (s.workers 1).sendq.length = 3 ∧ Ordered s l := by
  have hrun : ((recordAll Site.plain
      [.session (.connect 0 (some [])), .session (.connect 1 (some [])),
        .session (.login 0 (.string (bytes "a")) .nil .nil .nil .nil),
        .session (.login 1 (.string (bytes "b")) .nil .nil .nil .nil),
        .session (.chat 1 (.string (bytes "hi"))), .transmit 0 true]
      (State.start Game.empty, Ledger.empty)).any (fun r => decide
        (r.1.players.get (bytes "a") = some 0 ∧ r.1.players.get (bytes "b") = some 1
          ∧ (r.2.transmitted 0).length = 1 ∧ 2 < (r.1.workers 0).sendq.length
          ∧ (r.1.workers 1).sendq.length = 3))) = true := by decide +kernel
  obtain ⟨⟨s, l⟩, hs, hfound⟩ := (Option.any_eq_true _ _).mp hrun
  obtain ⟨ha, hb, hsent, hqueue, hqueue'⟩ := of_decide_eq_true hfound
  exact ⟨s, l, ha, hb, hsent, hqueue, hqueue',
    ordered_of_recorded Site.plain Game.empty s l (recorded_of_recordAll .start hs)⟩

end Server

end Felt
