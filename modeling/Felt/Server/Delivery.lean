import Felt.Server.Arrivals

/-!
# What clients are told of a deed

Whoever was logged in, and is, is told what has changed. A newcomer is sent
the game, and then told of what has changed since, like everybody else. What
a worker has sent already makes no difference: what counts is what it has sent
and what stands in its queue.

What was sent at once – the first message of a queue that is written – is taken
off the front, and what is new is put behind; so the two together are a longer
list, whatever has been sent of it. That is how queues and messages on their way
can be treated as one.
-/

namespace Felt

namespace Server

open Box (Point)

variable {P P' : Policy} {S : Site} {s s' t : State (Point Obj)} {fuel : ℕ}

/-! ## The deeds of a run -/

/-- A deed, as something that happens. -/
def Deed.happening (S : Site) (fuel : ℕ) : Deed → Happening
  | .session e => .session e
  | .act w e method x y => .request w (fun who => Server.act S.length (fuel + 1) e method who x y)
  | .transmit w accepted => .transmit w accepted

/-- What a worker sends. -/
def Deed.transmits (s : State (Point Obj)) (v : ℕ) : Deed → List (Msg (Point Obj))
  | .transmit w accepted => if v = w ∧ accepted = true then (s.workers v).sendq.take 1 else []
  | _ => []

/-- **Nobody logs in who is logged in already.** -/
def Deed.Once (S : Site) (s : State (Point Obj)) : Deed → Prop
  | .session e => LogsInOnce S e s
  | _ => True

theorem Deed.handler_happening (S : Site) (fuel : ℕ) (d : Deed) :
    (d.happening S fuel).handler S = d.handler S fuel := by
  cases d <;> rfl

theorem Deed.possible_happening {d : Deed} (h : d.Possible s) :
    (d.happening S fuel).Possible s := by
  cases d with
  | session _ => exact h
  | act _ _ _ _ _ => exact h.1
  | transmit _ _ => exact h

theorem Deed.once_happening {d : Deed} (h : d.Once S s) : (d.happening S fuel).LogsInOnce S s := by
  cases d with
  | session _ => exact h
  | act _ _ _ _ _ => trivial
  | transmit _ _ => trivial

/-! ## What the clients are told -/

/-- **What the clients are told** when the server goes from `s` to `s'`, and
its workers send this. When nobody was logged in, the game may have changed in
any way. -/
inductive Delivers (P : Policy) (L : Dict.Length Obj) (s : State (Point Obj))
    (sent : ℕ → List (Msg (Point Obj))) (s' : State (Point Obj)) : Prop where
  /-- Whoever is logged in was, and is told what has changed. -/
  | cast (ms : List (Msg (Point Obj)))
      (hspell : (∃ v, s.LoggedIn v) → Spell P L s.game ms s'.game)
      (hqueue : ∀ v, s'.LoggedIn v → s.LoggedIn v
        ∧ sent v ++ (s'.workers v).sendq = (s.workers v).sendq ++ ms)
  /-- Somebody comes, and is sent the game, and who has come. -/
  | welcome (w : ℕ) (g : Game (Point Obj)) {call : Call (Point Obj)} (hcall : call.isText = true)
      (hguest : (s.workers w).player = none) (hsound : Sound P.fits g)
      (hspell : (∃ v, s.LoggedIn v) → Stretch P L s.game g)
      (hgame : s'.game = (g.settled.say (fun _ => call)).settled)
      (hself : sent w ++ (s'.workers w).sendq
        = (s.workers w).sendq ++ snapshot g.settled :: (g.settled.say (fun _ => call)).sent)
      (hothers : ∀ v, v ≠ w → s'.LoggedIn v → s.LoggedIn v
        ∧ sent v ++ (s'.workers v).sendq
          = (s.workers v).sendq ++ (g.sent ++ (g.settled.say (fun _ => call)).sent))

/-- When nobody is logged in, any policy may stand for another one. -/
theorem Delivers.of_nobody {L : Dict.Length Obj} {sent : ℕ → List (Msg (Point Obj))}
    (h : Delivers P' L s sent s') (hfits : P'.fits = P.fits) (hnone : ¬∃ v, s.LoggedIn v) :
    Delivers P L s sent s' := by
  cases h with
  | cast ms _ hqueue => exact .cast ms (fun h => absurd h hnone) hqueue
  | welcome w g hcall hguest hsound _ hgame hself hothers =>
    exact .welcome w g hcall hguest (hfits ▸ hsound) (fun h => absurd h hnone) hgame hself hothers

theorem Sound.settled {fits : Kind → Kind → Prop} {g : Game (Point Obj)} (h : Sound fits g) :
    Sound fits g.settled := h.sameLinks (sameLinks_settled g)

theorem Manned.refit (h : Manned P s) (hfits : P.fits = P'.fits) : Manned P' s :=
  ⟨hfits ▸ h.sound, h.staff, h.sent⟩

section Cast

variable {w : ℕ} {ms : List (Msg (Point Obj))}

/-- **A stretch that is queued** for whoever is logged in. -/
theorem Seats.sendq_stretch (hi : Seats s) (ht : t.players = s.players)
    (hq : ∀ v, (t.workers v).sendq = (s.workers v).sendq) (g : Game (Point Obj)) {v : ℕ}
    (hv : s.LoggedIn v) : ((t.settle g).workers v).sendq = (s.workers v).sendq ++ g.sent := by
  rw [hi.sendq_settle ht, hq, if_pos hv]

/-- What is settled is the game there was. -/
theorem later_settled {α : Type} (g : Game α) : Later g g.settled :=
  ⟨le_rfl, le_rfl, fun _ _ => rfl, fun _ _ hp => hp⟩

/-- Who leaves makes a later game. -/
theorem Left.later {L : Dict.Length Obj} (h : Sound P.fits s.game) (hl : Left P L w s s') :
    Later s.game s'.game := by
  cases hl with
  | guest _ => exact .refl s.game
  | player _ _ hc _ => exact (h.later_of_chain hc).trans (later_settled _)
  | impostor _ _ => exact .refl s.game

/-- **Whoever is logged in when `w` has left** was, and is not `w`. -/
theorem Seats.loggedIn_left {L : Dict.Length Obj} (hi : Seats s) (hl : Left P L w s s') {v : ℕ}
    (hv : s'.LoggedIn v) : s.LoggedIn v ∧ v ≠ w := by
  obtain ⟨n, hn⟩ := hv
  cases hl with
  | guest hname =>
    refine ⟨⟨n, hn⟩, ?_⟩
    rintro rfl
    have hn' : s.players.get n = some v := hn
    rw [(hi.session n v hn').2.1, hn'] at hname
    cases hname
  | player _ _ _ _ =>
    have hn' : (((s.parted w).settle _).players.erase (s.workers w).name).get n = some v := hn
    rw [(SameTables.settle _ _).players, Dict.get_erase] at hn'
    split_ifs at hn' with hne
    refine ⟨⟨n, hn'⟩, ?_⟩
    rintro rfl
    exact hne (hi.session n v hn').2.1.symm
  | impostor _ hp =>
    refine ⟨⟨n, hn⟩, ?_⟩
    rintro rfl
    exact hi.player_ne_none ⟨n, hn⟩ hp

/-- **What is told when a connection ends.** -/
theorem Seats.cast_left {L : Dict.Length Obj} (hi : Seats s)
    (hplayers : ∀ n p, s'.game.players.get n = some p → s.game.players.get n = some p)
    (hl : Left P L w s s') : ∃ ms, Spell P L s.game ms s'.game
      ∧ ∀ v, s'.LoggedIn v → (s'.workers v).sendq = (s.workers v).sendq ++ ms := by
  cases hl with
  | guest _ => exact ⟨[], .nil _, fun v _ => (List.append_nil _).symm⟩
  | @player p g hname hp hc hempty =>
    refine ⟨g.sent, .single (.still hc hplayers), fun v hv => ?_⟩
    exact hi.sendq_stretch (t := s.parted w) rfl (fun _ => rfl) g
      (hi.loggedIn_left (L := L) (.player hname hp hc hempty) hv).1
  | impostor _ _ => exact ⟨[], .nil _, fun v _ => (List.append_nil _).symm⟩

end Cast

/-- What a worker that is logged in does not lose. -/
theorem popped_sendq {w v : ℕ} (accepted : Bool) (ha : accepted = true ∨ v ≠ w) :
    (Deed.transmit w accepted).transmits s v ++ ((s.popped w).workers v).sendq
      = (s.workers v).sendq := by
  have hworkers : (s.popped w).workers v
      = if v = w then { s.workers w with sendq := (s.workers w).sendq.drop 1 }
        else s.workers v := Function.update_apply _ _ _ _
  show (if v = w ∧ accepted = true then _ else _) ++ _ = _
  rw [hworkers]
  rcases eq_or_ne v w with rfl | hv
  · rw [if_pos ⟨rfl, ha.resolve_right (fun h => h rfl)⟩, if_pos rfl]
    exact List.take_append_drop 1 _
  · rw [if_neg (fun h => hv h.1), if_neg hv]
    rfl

/-- **What the clients are told of a deed that is no login.** -/
theorem delivers_of_done (h : Manned P s) (hi : Seats s) {d : Deed}
    (hd : ∀ w name pass r g b, d ≠ .session (.login w (.string name) pass r g b))
    (hpossible : d.Possible s) (hl : (d.handler S fuel).Leaves s s') (hdone : Done P S s d s') :
    Delivers P S.length s (fun v => d.transmits s v) s' := by
  have hplayers : ∀ n p, s'.game.players.get n = some p → s.game.players.get n = some p := by
    rw [players_of_leaves hd hl]
    exact fun _ _ hp => hp
  have hleft : ∀ w, Left P S.length w s s' → (∀ v, d.transmits s v = []) →
      Delivers P S.length s (fun v => d.transmits s v) s' := by
    intro w hl hnone
    obtain ⟨ms, hspell, hqueue⟩ := hi.cast_left hplayers hl
    refine .cast ms (fun _ => hspell) (fun v hv => ⟨(hi.loggedIn_left hl hv).1, ?_⟩)
    rw [hnone]
    exact hqueue v hv
  have hsettle : ∀ g, Chain P S.length s.game g → s' = s.settle g → (∀ v, d.transmits s v = []) →
      Delivers P S.length s (fun v => d.transmits s v) s' := by
    rintro g hc rfl hnone
    refine .cast g.sent (fun _ => .single (.still hc hplayers)) (fun v hv => ?_)
    have hin := (loggedIn_congr (SameTables.settle s g).players v).mp hv
    rw [hnone]
    exact ⟨hin, hi.sendq_stretch rfl (fun _ => rfl) g hin⟩
  cases hdone with
  | joined hj =>
    refine .cast [] (fun _ => ?_) (fun v hv => ?_)
    · rw [hj.game]
      exact .nil _
    · have hin := (loggedIn_congr hj.players v).mp hv
      have hlt := (hi.client _ v (hi.registered hin)).2
      refine ⟨hin, ?_⟩
      rw [hj.worker v hlt.ne]
      exact (List.append_nil _).symm
  | missed => exact .cast [] (fun _ => .nil _) (fun v hv => ⟨hv, (List.append_nil _).symm⟩)
  | refused hl => exact hleft _ hl (fun _ => rfl)
  | welcomed _ _ _ _ => exact absurd rfl (hd _ _ _ _ _ _)
  | said => exact hsettle _ (.single (.say rfl)) rfl (fun _ => rfl)
  | left hl => exact hleft _ hl (fun _ => rfl)
  | acted hc => exact hsettle _ hc rfl (fun _ => rfl)
  | @failed w e method x y g _ _ hc _ hl =>
    -- what the request has changed, and then who has left
    have hs := SameTables.settle s g
    have hm := h.settle hc
    have hlater : Later g s'.game := (later_settled g).trans (hl.later hm.sound)
    have hg : ∀ n p, g.players.get n = some p → s.game.players.get n = some p :=
      fun n p hp => hplayers n p (hlater.players n p hp)
    have hit := hi.sameTables hs
    obtain ⟨ms, hspell, hqueue⟩ := hit.cast_left
      (fun n p hp => (h.sound.later_of_chain hc).players n p (hplayers n p hp)) hl
    refine .cast (g.sent ++ ms) (fun _ => .cons (.still hc hg) hspell) (fun v hv => ?_)
    have hin := (loggedIn_congr hs.players v).mp (hit.loggedIn_left hl hv).1
    have hq := hqueue v hv
    rw [hi.sendq_stretch rfl (fun _ => rfl) g hin, List.append_assoc] at hq
    exact ⟨hin, hq⟩
  | idle hq =>
    refine .cast [] (fun _ => .nil _) (fun v hv => ⟨hv, ?_⟩)
    rw [List.append_nil]
    show (if v = _ ∧ _ then _ else _) ++ _ = _
    split_ifs with hv'
    · rw [hv'.1, hq]
      rfl
    · rfl
  | @sent w hq =>
    refine .cast [] (fun _ => .nil _) (fun v hv => ⟨?_, ?_⟩)
    · exact hv
    · rw [List.append_nil]
      exact popped_sendq true (Or.inl rfl)
  | @broken w _ hq hl =>
    have hpop : SameTables s (s.popped w) := SameTables.mapQueue s w (List.drop 1)
    have hit := hi.sameTables hpop
    obtain ⟨ms, hspell, hqueue⟩ := hit.cast_left hplayers hl
    refine .cast ms (fun _ => hspell) (fun v hv => ?_)
    obtain ⟨hin, hne⟩ := hit.loggedIn_left hl hv
    refine ⟨(loggedIn_congr hpop.players v).mp hin, ?_⟩
    rw [hqueue v hv, ← popped_sendq (s := s) false (Or.inr hne), List.append_assoc]

/-- **What the clients are told of a login.** -/
theorem delivers_of_login (h : Manned P s) (hi : Seats s) {w : ℕ} {name : Bytes}
    {pass r g b : Value (Point Obj)} (hw : s.Registered w)
    (honce : LogsInOnce S (.login w (.string name) pass r g b) s)
    (hmay : Deed.May P S s (.session (.login w (.string name) pass r g b)))
    (hl : (login S w (.string name) pass r g b).Leaves s s') :
    Delivers P S.length s (fun _ => []) s' := by
  change Run.Leaves (fun u => (if S.refuses pass then disconnect w
    else if (s.players.get name).isSome then disconnect w
    else welcome S w name r g b : Handler (Point Obj) Unit) u) s s' at hl
  have hleft : (unregister w).Leaves s s' → Delivers P S.length s (fun _ => []) s' := by
    intro hl
    have hplayers := players_of_unregister hl
    have hleft : Left P S.length w s s' := left_of_unregister hmay.2 hl
    obtain ⟨ms, hspell, hqueue⟩ := hi.cast_left (by
      rw [hplayers]
      exact fun _ _ hp => hp) hleft
    exact .cast ms (fun _ => hspell) (fun v hv => ⟨(hi.loggedIn_left hleft hv).1, hqueue v hv⟩)
  -- a login that is refused ends the connection
  by_cases hpass : S.refuses pass = true
  · simp only [if_pos hpass] at hl
    exact hleft hl
  · by_cases hname : (s.players.get name).isSome = true
    · simp only [if_neg hpass, if_pos hname] at hl
      exact hleft hl
    · simp only [if_neg hpass, if_neg hname] at hl
      have hfree := Option.not_isSome_iff_eq_none.mp hname
      have hguest := honce ⟨Bool.not_eq_true _ ▸ hpass, hfree⟩ w _ _ _ _ _ rfl
      obtain ⟨p, g', hg, hstretch, hp⟩ := addPlayer_stretch hmay.1
      rw [hl.of_ok (welcome_apply S hg w)]
      have hqueue := sendq_welcomed hi hw hguest hfree p g'
      have htext : (Call.message (formatString name ++ bytes " joins the game.")
          : Call (Point Obj)).isText = true := rfl
      refine .welcome w g' htext hguest (h.sound.chain hstretch.chain) (fun _ => hstretch) rfl ?_
        (fun v hv hin => ?_)
      · rw [hqueue, if_neg (fun hin => hi.player_ne_none hin hguest), if_pos rfl,
          if_pos (Or.inl rfl)]
        rfl
      · have hin' := ((loggedIn_welcomed hfree p g' v).mp hin).resolve_left hv
        rw [hqueue, if_pos hin', if_neg hv, if_pos (Or.inr hin')]
        exact ⟨hin', rfl⟩

/-- **What the clients are told of a deed.** -/
theorem delivers_of_leaves (hP : P.Hosts) (h : Manned P s) (hi : Seats s) {d : Deed}
    (hd : d.Possible s) (honce : d.Once S s) (hmay : d.May P S s)
    (hl : (d.handler S fuel).Leaves s s') :
    Delivers P S.length s (fun v => d.transmits s v) s' := by
  by_cases hlogin : ∃ w name pass r g b, d = .session (.login w (.string name) pass r g b)
  · obtain ⟨w, name, pass, r, g, b, rfl⟩ := hlogin
    exact delivers_of_login h hi hd honce hmay hl
  · push Not at hlogin
    exact delivers_of_done h hi hlogin hd hl (done_of_leaves hP h.sound h.staff hd hmay hl)

/-! ## What a step of the server is to its clients -/

/-- **A step of the server**, as far as its clients go, in which its workers
send this. -/
structure Serves (P : Policy) (L : Dict.Length Obj) (s : State (Point Obj))
    (sent : ℕ → List (Msg (Point Obj))) (s' : State (Point Obj)) : Prop where
  /-- The game is sound, and its players are those of the workers. -/
  manned : Manned P s'
  /-- The tables agree. -/
  seats : Seats s'
  /-- A worker that was not made yet is a guest. -/
  unmade : ∀ w, s'.nextWorker ≤ w → (s'.workers w).player = none
  /-- A guest was one, and is told nothing. -/
  guest : ∀ w, (s'.workers w).player = none → (s.workers w).player = none
    ∧ ((s.workers w).sendq = [] → sent w = [] ∧ (s'.workers w).sendq = [])
  /-- The others are told what has changed. -/
  delivers : Delivers P L s sent s'

/-- **What every deed is to the clients**, if it makes only changes that may
occur when somebody is logged in. -/
theorem serves_of_leaves (hP : P.fits = Kind.Below) (h : Manned P s) (hi : Seats s)
    (hunmade : ∀ w, s.nextWorker ≤ w → (s.workers w).player = none)
    (hempty : ∀ w, (s.workers w).player = none → (s.workers w).sendq = []) {d : Deed}
    (hd : d.Possible s) (honce : d.Once S s) (hmay : (∃ v, s.LoggedIn v) → d.May P S s)
    (hl : (d.handler S fuel).Leaves s s') :
    Serves P S.length s (fun v => d.transmits s v) s' := by
  have hshipped : Manned Policy.shipped s := h.refit hP
  have hhosts := hosts_of_below (P := Policy.shipped) rfl
  have hstep : Stepped S s (d.happening S fuel) s' := by
    refine stepped_of_leaves hi (hunmade _ le_rfl) (hempty _ (hunmade _ le_rfl))
      (Deed.possible_happening hd) (Deed.once_happening honce) ?_
    rw [Deed.handler_happening]
    exact hl
  have hguest : ∀ w, (s'.workers w).player = none → ¬Feed.Joins w ((d.happening S fuel).log S s) :=
    fun w hw hjoins => (hstep.joins w hjoins).2.2 hw
  refine ⟨(hshipped.done (done_of_leaves hhosts hshipped.sound hshipped.staff hd
    (may_shipped d s) hl)).refit hP.symm, hstep.seats, fun w hw => ?_, fun w hw => ?_, ?_⟩
  · rw [hstep.player w (fun hjoins => ?_)]
    · exact hunmade w (hstep.nextWorker.trans hw)
    · have hlt := (hi.client _ w (hstep.joins w hjoins).1).2
      have := hstep.nextWorker
      omega
  · have hw' : (s.workers w).player = none := (hstep.player w (hguest w hw)).symm.trans hw
    refine ⟨hw', fun hq => ?_⟩
    have hnews := Happening.news_of_not (fun hin => hi.player_ne_none hin hw') (hguest w hw)
    rw [hstep.sendq, hnews, List.append_nil]
    cases d with
    | transmit v accepted =>
      refine ⟨?_, ?_⟩
      · show (if w = v ∧ accepted = true then (s.workers w).sendq.take 1 else []) = []
        rw [hq, List.take_nil, ite_self]
      · show (if w = v then (s.workers w).sendq.drop 1 else (s.workers w).sendq) = []
        rw [hq, List.drop_nil, ite_self]
    | session _ => exact ⟨rfl, hq⟩
    | act _ _ _ _ _ => exact ⟨rfl, hq⟩
  -- where nobody is logged in nobody is told anything, and any change may occur
  · by_cases hnobody : ∃ v, s.LoggedIn v
    · exact delivers_of_leaves (hosts_of_below hP) h hi hd honce (hmay hnobody) hl
    · exact (delivers_of_leaves hhosts hshipped hi hd honce (may_shipped d s) hl).of_nobody hP.symm
        hnobody

end Server

end Felt
