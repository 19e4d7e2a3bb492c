import LinkEngine.Engine.Running
import LinkEngine.Proofs.Unkept
import Mathlib.Data.List.Basic

/-!
# Who looks at the mark

A link that is marked as not to be kept goes through hooks, waits, suspensions and two-way
streams as any other. Every part of a step commutes with setting the mark, and so does every step
but one: what comes after a request (`stepAfter_unkeep`), and that only where the mark is all that
keeps the link from resting (`Engine.isAboutToRest`). So setting it earlier or later makes no
difference to any move but that one (`move_unkeep`).
-/

namespace LinkEngine.Engine

open Connection (CloseReason)
open Link (Outcome Step Upgrades)

variable {n : Nat} {s : Engine}

/-! ## Hooks -/

theorem awaitReadable_unkeep (l : Nat) (s : Engine) :
    awaitReadable l (s.unkeep n) = unkeepIn n (awaitReadable l s) := by
  unfold awaitReadable
  rw [link?_unkeep]
  cases s.link? l with
  | none => rfl
  | some k =>
    have hset := setLink_unkeep (n := n) s l { k with stream := k.stream.wait.2 }
    dsimp only [Option.map_some, Link.unkept] at hset ⊢
    rw [hset]
    generalize s.setLink l { k with stream := k.stream.wait.2 } = t
    rcases k.stream.wait.1 with ⟨r, elapsed⟩ | ⟨ops⟩
    · rfl
    · dsimp only
      rw [performAll_unkeep (tearDown_blind n), link?_unkeep]
      cases (performAll tearDown l ops t).link? l <;> rfl

theorem startComet_unkept (b : Bool) (l : Nat) (k : Link) (upgrades : Upgrades)
    (timeout : Option Time.Duration) :
    startComet l (k.unkept b) upgrades timeout =
      (startComet l k upgrades timeout).map fun r => (r.1, r.2.unkept b) := by
  have hcheck : checkUpgrade (k.unkept b) upgrades .comet = checkUpgrade k upgrades .comet := rfl
  have hrequest : (k.unkept b).request = k.request := rfl
  unfold startComet
  rw [hcheck, hrequest]
  cases checkUpgrade k upgrades .comet with
  | error f => rfl
  | ok _ => cases k.request.beginAsync <;> rfl

theorem startDuplex_unkept (b : Bool) (k : Link) (upgrades : Upgrades) :
    startDuplex (k.unkept b) upgrades = (startDuplex k upgrades).map (·.unkept b) := by
  have hcheck : checkUpgrade (k.unkept b) upgrades .duplex = checkUpgrade k upgrades .duplex := rfl
  unfold startDuplex
  rw [hcheck]
  cases checkUpgrade k upgrades .duplex <;> rfl

theorem act_unkeep (l : Nat) (upgrades : Upgrades) (a : Action.Kind) (s : Engine) :
    act l upgrades a (s.unkeep n) = unkeepIn n (act l upgrades a s) := by
  unfold act
  rw [link?_unkeep]
  cases s.link? l with
  | none => rfl
  | some k =>
    rw [Option.map_some]
    cases a with
    | transfer t =>
      refine mk_unkeepIn (setLink_unkeep_of ?_ s)
      rfl
    | wait =>
      dsimp only
      rw [awaitReadable_unkeep]
      rfl
    | operate op =>
      dsimp only
      rw [perform_unkeep]
      rfl
    | echoLine =>
      refine mk_unkeepIn (setLink_unkeep_of ?_ s)
      rfl
    | comet name timeout =>
      dsimp only
      rw [startComet_unkept]
      cases startComet l k upgrades timeout with
      | error f => rfl
      | ok r =>
        refine mk_unkeepIn ?_
        cases name with
        | none => exact setLink_unkeep s l r.2
        | some name =>
          exact congrArg (fun t : Engine => { t with handles := (name, r.1) :: s.handles })
            (setLink_unkeep s l r.2)
    | duplex =>
      dsimp only
      rw [startDuplex_unkept]
      cases startDuplex k upgrades with
      | error f => rfl
      | ok k => exact mk_unkeepIn (setLink_unkeep s l k)
    | duplexClose =>
      have hduplex : (k.unkept (l == n)).duplex = k.duplex := rfl
      dsimp only
      rw [hduplex]
      cases k.duplex with
      | none => rfl
      | some d =>
        refine mk_unkeepIn (setLink_unkeep_of ?_ s)
        rfl
    | duplexInfo =>
      have hduplex : (k.unkept (l == n)).duplex = k.duplex := rfl
      dsimp only
      rw [hduplex]
      cases k.duplex <;> rfl
    | kill =>
      refine mk_unkeepIn (setLink_unkeep_of ?_ s)
      unfold Link.unkept
      rw [Bool.or_true]
    | closeSelf reason => exact mk_unkeepIn (closeWith_unkeep (tearDown_blind n) _ _ s)
    | closing => rfl
    | view => rfl
    | addresses => rfl
    | counts => rfl
    | pendingTimers => rfl
    | fail f => rfl
    | panic => rfl
    | «return» keep => rfl

theorem actAll_unkeep (l : Nat) (upgrades : Upgrades) (actions : List Action) (s : Engine) :
    actAll l upgrades actions (s.unkeep n) = unkeepIn n (actAll l upgrades actions s) := by
  induction actions generalizing s with
  | nil => rfl
  | cons a rest ih =>
    unfold actAll
    rw [act_unkeep]
    obtain ⟨deed, t⟩ := act l upgrades a.kind s
    cases deed with
    | answered x =>
      dsimp only [unkeepIn]
      rw [note_unkeep]
      exact ih _
    | failed f =>
      dsimp only [unkeepIn]
      rw [note_unkeep]
      exact ite_unkeepIn (fun _ => ih _) fun _ => rfl
    | returned x keep => exact mk_unkeepIn (note_unkeep t l _)
    | panicked => rfl

theorem runHook_unkeep (l : Nat) (k : Link) (b : Bool) (hook : Hook) (upgrades : Upgrades)
    (s : Engine) :
    runHook l (k.unkept b) hook upgrades (s.unkeep n) =
      unkeepIn n (runHook l k hook upgrades s) := by
  unfold runHook
  exact ite_unkeepIn (fun _ => rfl) fun _ => actAll_unkeep l upgrades _ s

theorem callHook_unkeep (l : Nat) (hook : Hook) (upgrades : Upgrades) (s : Engine) :
    callHook l hook upgrades (s.unkeep n) = unkeepIn n (callHook l hook upgrades s) := by
  unfold callHook
  rw [link?_unkeep]
  cases s.link? l with
  | none => rfl
  | some k =>
    dsimp only [Option.map_some]
    rw [note_unkeep, runHook_unkeep]
    obtain ⟨ending, t⟩ := runHook l k hook upgrades (s.note l (.began hook))
    dsimp only [unkeepIn]
    rw [note_unkeep, link?_unkeep]
    cases ending with
    | panicked => rfl
    | returned keep => cases (t.note l (.ended hook (.returned keep))).link? l <;> rfl
    | failed f => cases (t.note l (.ended hook (.failed f))).link? l <;> rfl

/-! ## Parts of steps -/

theorem withTransition_unkeep {l : Nat} {go : Link → Engine → Outcome × Engine}
    (hgo : ∀ k s, go (k.unkept (l == n)) (s.unkeep n) = unkeepIn n (go k s))
    (e : Connection.Event) (s : Engine) :
    withTransition l e (s.unkeep n) go = unkeepIn n (withTransition l e s go) := by
  unfold withTransition
  rw [link?_unkeep]
  cases s.link? l with
  | none => rfl
  | some k =>
    have htransition : (k.unkept (l == n)).transition e =
        (k.transition e).map (·.unkept (l == n)) := by
      have hmachine : (k.unkept (l == n)).machine = k.machine := rfl
      unfold Link.transition
      rw [hmachine]
      cases k.machine.apply e <;> rfl
    dsimp only [Option.map_some]
    rw [htransition]
    cases k.transition e with
    | error f => rfl
    | ok k =>
      dsimp only [Except.map]
      rw [setLink_unkeep, hgo]

theorem withHook_unkeep {l : Nat} {go : Bool → Engine → Outcome × Engine}
    (hgo : ∀ keep s, go keep (s.unkeep n) = unkeepIn n (go keep s)) (hook : Hook)
    (upgrades : Upgrades) (s : Engine) :
    withHook l hook upgrades (s.unkeep n) go = unkeepIn n (withHook l hook upgrades s go) := by
  unfold withHook
  rw [callHook_unkeep]
  obtain ⟨ending, t⟩ := callHook l hook upgrades s
  cases ending with
  | returned keep => exact hgo keep t
  | failed f => rfl
  | panicked => rfl

theorem withFlush_unkeep {l : Nat} {go : Link → Engine → Outcome × Engine}
    (hgo : ∀ k s, go (k.unkept (l == n)) (s.unkeep n) = unkeepIn n (go k s)) (s : Engine) :
    withFlush l (s.unkeep n) go = unkeepIn n (withFlush l s go) := by
  unfold withFlush
  rw [link?_unkeep]
  cases s.link? l with
  | none => rfl
  | some k =>
    have hset := setLink_unkeep (n := n) s l { k with stream := k.stream.flush.2 }
    dsimp only [Option.map_some, Link.unkept] at hset ⊢
    rw [hset]
    cases k.stream.flush.1 with
    | error kind => exact mk_unkeepIn (note_unkeep _ l _)
    | ok _ => exact hgo { k with stream := k.stream.flush.2 } _

theorem arm_unkeep (l : Nat) (delay : Time.Duration) (s : Engine) :
    (s.unkeep n).arm l delay = unkeepIn n (s.arm l delay) := by
  unfold arm
  rw [link?_unkeep]
  cases s.link? l with
  | none => rfl
  | some k =>
    have hset := setLink_unkeep (n := n) s l { k with waitGeneration := k.waitGeneration + 1 }
    dsimp only [Option.map_some, Link.unkept] at hset ⊢
    rw [hset]
    generalize s.setLink l { k with waitGeneration := k.waitGeneration + 1 } = t
    have hnew (a : Alarm) : (t.unkeep n).newTimer a = unkeepIn n (t.newTimer a) := rfl
    have hqueue (s : Engine) (u : Nat) :
        (s.unkeep n).queueTimer u delay = unkeepIn n (s.queueTimer u delay) := rfl
    rw [hnew]
    dsimp only [unkeepIn]
    rw [hqueue]
    obtain ⟨u, t⟩ := t.newTimer (.deadline l (k.waitGeneration + 1))
    dsimp only [unkeepIn]
    obtain ⟨_ | _, t⟩ := t.queueTimer u delay
    · exact mk_unkeepIn (note_unkeep t l _)
    · have hset := setLink_unkeep (n := n) t l
        { k with waitGeneration := k.waitGeneration + 1, deadline := some u }
      dsimp only [Link.unkept] at hset ⊢
      rw [hset]
      cases k.deadline <;> rfl

/-! ## Steps -/

theorem stepAccept_unkeep (l : Nat) (s : Engine) :
    stepAccept l (s.unkeep n) = unkeepIn n (stepAccept l s) := by
  refine withTransition_unkeep (fun k s => ?_) .accept s
  have hset := setLink_unkeep (n := n) s l { k with stream := { k.stream with
    socket := (k.stream.socket.setReadTimeout
      (s.listener k.listener).settings.readTimeout.millis).2 } }
  have hlistener : (s.unkeep n).listener (k.unkept (l == n)).listener = s.listener k.listener := rfl
  dsimp only [Link.unkept] at hset hlistener ⊢
  rw [hlistener, hset]
  split
  · rfl
  · exact withHook_unkeep (fun _ _ => rfl) .start .none _

theorem stepResumeParked_unkeep (l : Nat) (s : Engine) :
    stepResumeParked l (s.unkeep n) = unkeepIn n (stepResumeParked l s) := by
  unfold stepResumeParked
  rw [link?_unkeep]
  cases s.link? l with
  | none => rfl
  | some k =>
    have hmachine : (k.unkept (l == n)).machine.state = k.machine.state := rfl
    dsimp only [Option.map_some]
    rw [disarm_unkeep, hmachine]
    cases k.machine.state with
    | keepalive => exact ite_unkeepIn (fun _ => rfl) fun _ => rfl
    | _ => rfl

theorem stepDispatch_unkeep (l : Nat) (s : Engine) :
    stepDispatch l (s.unkeep n) = unkeepIn n (stepDispatch l s) := by
  refine withTransition_unkeep (fun k s => ?_) .dispatch s
  have hset := setLink_unkeep (n := n) (s.count k.listener .requests) l { k with pending := .none }
  dsimp only [Link.unkept] at hset ⊢
  refine Eq.trans (congrArg (withHook l .request .any · _) hset) ?_
  exact withHook_unkeep (fun _ _ => withFlush_unkeep (fun _ _ => rfl) _) .request .any _

theorem stepRest_unkeep (l : Nat) (killed : Bool) (s : Engine) :
    stepRest l killed (s.unkeep n) = unkeepIn n (stepRest l killed s) := by
  unfold stepRest
  rw [link?_unkeep]
  cases s.link? l with
  | none => rfl
  | some k =>
    dsimp only [Option.map_some, Link.unkept]
    cases k.machine.finish killed with
    | error r =>
      refine mk_unkeepIn (setLink_unkeep_of ?_ s)
      rfl
    | ok machine =>
      refine ite_unkeepIn (fun _ => mk_unkeepIn (setLink_unkeep_of ?_ s)) fun _ => mk_unkeepIn ?_
      · rfl
      · refine congrArg (Engine.count · k.listener .keepalives) (setLink_unkeep_of ?_ s)
        rfl

theorem waitOnce_unkeep (l deadline : Nat) (ready idle : Step) (late : CloseReason) (s : Engine) :
    waitOnce l deadline ready idle late (s.unkeep n) =
      unkeepIn n (waitOnce l deadline ready idle late s) := by
  unfold waitOnce
  rw [link?_unkeep]
  cases s.link? l with
  | none => rfl
  | some k =>
    refine ite_unkeepIn (fun _ => rfl) fun _ => ite_unkeepIn (fun _ => rfl) fun _ => ?_
    rw [awaitReadable_unkeep]
    obtain ⟨r, t⟩ := awaitReadable l s
    cases r with
    | error kind => rfl
    | ok readiness =>
      cases readiness with
      | closed =>
        dsimp only [unkeepIn]
        rw [link?_unkeep]
        cases t.link? l <;> rfl
      | _ => rfl

theorem stepBlock_unkeep (l : Nat) (s : Engine) :
    stepBlock l (s.unkeep n) = unkeepIn n (stepBlock l s) := by
  unfold stepBlock
  rw [link?_unkeep]
  cases s.link? l with
  | none => rfl
  | some k => exact waitOnce_unkeep l k.restUntil .dispatch .block .keepaliveTimeout s

theorem park_unkeep (l : Nat) (s : Engine) :
    stepSuspend.park l (s.unkeep n) = unkeepIn n (stepSuspend.park l s) := by
  unfold stepSuspend.park
  rw [link?_unkeep]
  cases s.link? l with
  | none => rfl
  | some k =>
    dsimp only [Option.map_some, Link.unkept]
    split
    · rfl
    · refine mk_unkeepIn (setLink_unkeep_of ?_ s)
      rfl
    · next r _ =>
      refine mk_unkeepIn (Eq.trans (congrArg (Engine.disarm · l) ?_) (disarm_unkeep l _))
      refine setLink_unkeep_of ?_ s
      rfl

theorem stepUpgrade_unkeep (l : Nat) (s : Engine) :
    stepUpgrade l (s.unkeep n) = unkeepIn n (stepUpgrade l s) := by
  refine withTransition_unkeep (fun k s => ?_) .upgrade s
  refine mk_unkeepIn (congrArg (Engine.count · k.listener .duplexUpgrades) (setLink_unkeep_of ?_ s))
  rfl

theorem stepService_unkeep (l : Nat) (s : Engine) :
    stepService l (s.unkeep n) = unkeepIn n (stepService l s) := by
  refine withTransition_unkeep (fun before s => ?_) .dispatch s
  refine withHook_unkeep (fun _ s => ?_) .service .none s
  refine withFlush_unkeep (fun k s => ?_) s
  refine ite_unkeepIn (fun _ => rfl) fun _ => ite_unkeepIn (fun _ => rfl) fun _ => ?_
  refine Eq.trans (congrArg (withTransition l .keepalive · _) (setLink_unkeep_of ?_ s))
    (withTransition_unkeep (fun _ _ => rfl) .keepalive _)
  rfl

theorem flushAnyway_unkeep (l : Nat) (s : Engine) :
    stepResume.flushAnyway l (s.unkeep n) = (stepResume.flushAnyway l s).unkeep n := by
  refine modifyLink_unkeep (fun k => ?_) s l
  dsimp only [Link.unkept]
  split <;> rfl

theorem stepResume_unkeep (l : Nat) (timedOut : Bool) (s : Engine) :
    stepResume l timedOut (s.unkeep n) = unkeepIn n (stepResume l timedOut s) := by
  refine withTransition_unkeep (fun k s => ?_) .wake s
  have hset := setLink_unkeep (n := n) s l { k with comet := none }
  dsimp only [Link.unkept] at hset ⊢
  rw [hset]
  generalize s.setLink l { k with comet := none } = t
  refine ite_unkeepIn (fun _ => ?_) fun _ => ite_unkeepIn (fun _ => rfl) fun _ => ?_
  · rw [callHook_unkeep]
    obtain ⟨ending, t⟩ := callHook l .suspendTimeout .none t
    cases ending with
    | panicked => rfl
    | _ => exact mk_unkeepIn (flushAnyway_unkeep l t)
  · refine withHook_unkeep (fun _ s => ?_) .resume .comet (t.count k.listener .wakes)
    exact withFlush_unkeep (fun _ _ => rfl) s

theorem stepSuspend_unkeep (l : Nat) (s : Engine) :
    stepSuspend l (s.unkeep n) = unkeepIn n (stepSuspend l s) := by
  unfold stepSuspend
  rw [link?_unkeep]
  cases s.link? l with
  | none => rfl
  | some k =>
    refine ite_unkeepIn (fun _ => rfl) fun _ => ?_
    refine withTransition_unkeep (fun k s => ?_) .suspend s
    have htimeout : ((k.unkept (l == n)).comet.bind (·.timeout)).getD
        ((s.unkeep n).listener (k.unkept (l == n)).listener).settings.suspendTimeout =
      (k.comet.bind (·.timeout)).getD (s.listener k.listener).settings.suspendTimeout := rfl
    dsimp only
    rw [htimeout, arm_unkeep]
    obtain ⟨_ | _, t⟩ := s.arm l
      ((k.comet.bind (·.timeout)).getD (s.listener k.listener).settings.suspendTimeout)
    · rfl
    · exact park_unkeep l (t.count k.listener .suspends)

/-- What comes after a request is the same, unless the mark is all that keeps the link from
resting. -/
theorem stepAfter_unkeep {l : Nat} {keep : Bool} {s : Engine}
    (h : l = n → ∀ k, s.link? l = some k → k.pending = .none → keep = true → s.isClosing k = true) :
    stepAfter l keep (s.unkeep n) = unkeepIn n (stepAfter l keep s) := by
  unfold stepAfter
  rw [link?_unkeep]
  cases hk : s.link? l with
  | none => rfl
  | some k =>
    have hpending : (k.unkept (l == n)).pending = k.pending := rfl
    dsimp only [Option.map_some]
    rw [hpending]
    cases hp : k.pending with
    | duplex =>
      refine mk_unkeepIn (setLink_unkeep_of ?_ s)
      rfl
    | comet c =>
      refine mk_unkeepIn (setLink_unkeep_of ?_ s)
      rfl
    | none =>
      have hclosing : (s.unkeep n).isClosing (k.unkept (l == n)) = s.isClosing k := rfl
      have hkilled : (!keep || (k.unkept (l == n)).killKeepalive || s.isClosing k) =
          (!keep || k.killKeepalive || s.isClosing k) := by
        by_cases hl : l = n
        · cases keep with
          | false => rfl
          | true => rw [h hl k hk hp rfl, Bool.or_true, Bool.or_true]
        · rw [beq_eq_false_iff_ne.2 hl, Link.unkept_false]
      dsimp only
      rw [hclosing, hkilled]
      rfl

theorem register_go_unkeep (l : Nat) (takes : Bool) (events : List Multiplexer.Event) (s : Engine) :
    register.go l takes events (s.unkeep n) = unkeepIn n (register.go l takes events s) := by
  induction events generalizing s with
  | nil => rfl
  | cons event rest ih =>
    cases event with
    | notice =>
      unfold register.go
      rw [notify_unkeep (tearDown_blind n)]
      exact ih _
    | deadlines =>
      have helapse : (s.unkeep n).elapse (deadlineWhile + elapseSlack) =
          (s.elapse (deadlineWhile + elapseSlack)).unkeep n := rfl
      unfold register.go
      rw [helapse, runTimers_unkeep (tearDown_blind n)]
      exact ih _
    | deadlinesAfterShutdown =>
      have hrun := runTimers_unkeep (tearDown_blind n)
        { s.elapse (deadlineWhile + elapseSlack) with
          scheduler := (s.elapse (deadlineWhile + elapseSlack)).scheduler.shutdown }
      unfold register.go
      refine Eq.trans (congrArg (fun r : Nat × Engine => register.go l takes rest r.2) hrun) ?_
      exact ih _
    | panic => rfl

theorem register_unkeep (l : Nat) (k : Link) (b : Bool) (m : Multiplexer) (s : Engine) :
    register l (k.unkept b) m (s.unkeep n) = unkeepIn n (register l k m s) := by
  unfold register
  cases m with
  | polling w => rfl
  | scripted script =>
    exact register_go_unkeep l (script.headD {}).takes (script.headD {}).events
      (s.modifyListener k.listener fun x => { x with multiplexer := some (.scripted script.tail) })

theorem declined_unkeep (l : Nat) (s : Engine) :
    stepAwait.declined l (s.unkeep n) = unkeepIn n (stepAwait.declined l s) := by
  unfold stepAwait.declined
  rw [link?_unkeep]
  cases s.link? l with
  | none => rfl
  | some k =>
    dsimp only [Option.map_some, Link.unkept]
    split
    · refine mk_unkeepIn (Eq.trans (congrArg (Engine.disarm · l) ?_) (disarm_unkeep l _))
      refine setLink_unkeep_of ?_ s
      rfl
    · rfl

theorem stepAwait_unkeep (l : Nat) (s : Engine) :
    stepAwait l (s.unkeep n) = unkeepIn n (stepAwait l s) := by
  unfold stepAwait
  rw [link?_unkeep]
  cases s.link? l with
  | none => rfl
  | some k =>
    have hset := setLink_unkeep (n := n) s l { k with stream := k.stream.poll.2 }
    dsimp only [Option.map_some, Link.unkept] at hset ⊢
    rw [hset]
    generalize s.setLink l { k with stream := k.stream.poll.2 } = t
    split
    · rfl
    · rfl
    · rfl
    · refine ite_unkeepIn (fun _ => rfl) fun _ => ?_
      have hlistener : (t.unkeep n).listener k.listener = t.listener k.listener := rfl
      rw [hlistener]
      cases (t.listener k.listener).multiplexer with
      | none => rfl
      | some m =>
        dsimp only
        cases k.request.rest with
        | error r => rfl
        | ok r =>
          have hset := setLink_unkeep (n := n) t l
            { k with stream := k.stream.poll.2, request := r }
          have hnow : (t.unkeep n).now = t.now := rfl
          dsimp only [Link.unkept] at hset ⊢
          rw [hset, hnow, arm_unkeep]
          obtain ⟨_ | _, t⟩ :=
            (t.setLink l { k with stream := k.stream.poll.2, request := r }).arm l
              (.ofMillis (k.restUntil - t.now))
          · rfl
          · have hregister := register_unkeep (n := n) l { k with stream := k.stream.poll.2 }
              (l == n) m t
            dsimp only [Link.unkept, unkeepIn] at hregister ⊢
            rw [hregister]
            obtain ⟨_ | _ | _, t⟩ := register l { k with stream := k.stream.poll.2 } m t
            · rfl
            · exact declined_unkeep l t
            · rfl

/-- The next step of the task of link `n` lets it rest, if it is kept. -/
def isAboutToRest (s : Engine) (n : Nat) : Bool :=
  (s.link? n).any fun k => k.step = some (.after true) ∧ k.pending = .none ∧ !s.isClosing k

theorem isClosing_of_not_rest {k : Link} (h : s.isAboutToRest n = false) (hk : s.link? n = some k)
    (hs : k.step = some (.after true)) (hp : k.pending = .none) : s.isClosing k = true := by
  unfold isAboutToRest at h
  rw [hk, Option.any_some] at h
  simpa [hs, hp] using h

/-- **A step of a task is the same, unless the mark is all that keeps the link from resting.** -/
theorem stepLink_unkeep {l : Nat} {k : Link} {step : Step} {s : Engine} (hk : s.link? l = some k)
    (hs : k.step = some step) (h : l = n → s.isAboutToRest n = false) :
    stepLink l step (s.unkeep n) = unkeepIn n (stepLink l step s) := by
  cases step with
  | accept => exact stepAccept_unkeep l s
  | resumeParked => exact stepResumeParked_unkeep l s
  | dispatch => exact stepDispatch_unkeep l s
  | after keep =>
    refine stepAfter_unkeep fun hl k' hk' hp hkeep => ?_
    obtain rfl : k = k' := Option.some.inj (hk.symm.trans hk')
    exact isClosing_of_not_rest (h hl) (hl ▸ hk) (hkeep ▸ hs) hp
  | rest killed => exact stepRest_unkeep l killed s
  | await => exact stepAwait_unkeep l s
  | block => exact stepBlock_unkeep l s
  | suspend => exact stepSuspend_unkeep l s
  | resume timedOut => exact stepResume_unkeep l timedOut s
  | upgrade => exact stepUpgrade_unkeep l s
  | listen deadline => exact waitOnce_unkeep l deadline .service (.listen deadline) .timeout s
  | service => exact stepService_unkeep l s

/-! ## Tasks -/

theorem failureReason_unkeep (l : Nat) (f : Failure) (s : Engine) :
    failureReason l f (s.unkeep n) = unkeepIn n (failureReason l f s) := by
  unfold failureReason
  rw [link?_unkeep]
  cases s.link? l with
  | none => rfl
  | some k =>
    refine ite_unkeepIn (fun _ => rfl) fun _ => ite_unkeepIn (fun _ => ?_) fun _ => rfl
    rw [trigger_unkeep (tearDown_blind n)]
    rfl

theorem conclude_unkeep (l : Nat) (outcome : Outcome) (s : Engine) :
    conclude l outcome (s.unkeep n) = (conclude l outcome s).unkeep n := by
  have hrelease (s : Engine) : (s.unkeep n).modifyLink l (fun k => { k with step := none }) =
      (s.modifyLink l fun k => { k with step := none }).unkeep n := by
    refine modifyLink_unkeep (fun k => ?_) s l
    rfl
  have hfail (f : Failure) :
      (tearDown l (failureReason l f (s.unkeep n)).1 (failureReason l f (s.unkeep n)).2).modifyLink
          l (fun k => { k with step := none }) =
        ((tearDown l (failureReason l f s).1 (failureReason l f s).2).modifyLink l
          fun k => { k with step := none }).unkeep n := by
    rw [failureReason_unkeep, ← hrelease, ← tearDown_blind]
    rfl
  unfold conclude
  cases outcome with
  | next step =>
    refine modifyLink_unkeep (fun k => ?_) s l
    rfl
  | park => exact hrelease s
  | close reason =>
    dsimp only
    rw [tearDown_blind, hrelease]
  | fail f => exact hfail f
  | refused f => exact hfail f
  | panic =>
    dsimp only
    rw [tearDown_blind, hrelease]

theorem advance_unkeep {l : Nat} {s : Engine} (h : l = n → s.isAboutToRest n = false) :
    advance l (s.unkeep n) = (advance l s).unkeep n := by
  unfold advance
  rw [link?_unkeep]
  cases hk : s.link? l with
  | none => rfl
  | some k =>
    have hstep : (k.unkept (l == n)).step = k.step := rfl
    dsimp only [Option.map_some, Option.bind_some]
    rw [hstep]
    cases hs : k.step with
    | none => rfl
    | some step =>
      dsimp only
      rw [stepLink_unkeep hk hs h]
      exact conclude_unkeep l _ _

theorem begin_unkeep (place : Nat) (s : Engine) :
    begin place (s.unkeep n) = (begin place s).unkeep n := by
  have htasks : (s.unkeep n).tasks = s.tasks := rfl
  unfold begin
  rw [htasks]
  cases s.tasks[place]? with
  | none => rfl
  | some task =>
    dsimp only
    rw [link?_unkeep]
    cases s.link? task.link with
    | none => rfl
    | some k =>
      refine ite_unkeep (fun _ => rfl) fun _ => ite_unkeep (fun _ => rfl) fun _ =>
        ite_unkeep (fun _ => ?_) fun _ => ?_
      · exact tearDown_blind n task.link _ { s with tasks := s.tasks.eraseIdx place }
      · refine setLink_unkeep_of ?_ { s with tasks := s.tasks.eraseIdx place }
        rfl

/-! ## Moves -/

theorem notifyWatched_unkeep (i : Nat) (ls : List Nat) (s : Engine) :
    notifyWatched i ls (s.unkeep n) = (notifyWatched i ls s).unkeep n := by
  refine foldl_unkeep (fun s l => ?_) ls s
  rw [notify_unkeep (tearDown_blind n)]
  obtain ⟨woke, t⟩ := notify tearDown l s
  refine ite_unkeep (fun _ => ?_) fun _ => rfl
  have hwatcher : (t.unkeep n).watcher? i = t.watcher? i := rfl
  dsimp only [unkeepIn]
  rw [hwatcher]
  cases t.watcher? i <;> rfl

theorem pollRound_unkeep (i : Nat) (s : Engine) :
    pollRound i (s.unkeep n) = (pollRound i s).unkeep n := by
  have hwatcher : (s.unkeep n).watcher? i = s.watcher? i := rfl
  have hresting : (s.unkeep n).isResting = s.isResting := by
    funext l
    unfold isResting
    rw [link?_unkeep]
    cases s.link? l <;> rfl
  have hreported : (s.unkeep n).isReported = s.isReported := by
    funext l
    unfold isReported
    rw [link?_unkeep]
    cases s.link? l <;> rfl
  unfold pollRound pollRoundWith
  rw [hwatcher, hresting, hreported]
  cases s.watcher? i with
  | none => rfl
  | some w =>
    refine ite_unkeep (fun _ => rfl) fun _ => ?_
    generalize w.round s.isResting (fun ls => some (ls.map s.isReported)) = x
    exact notifyWatched_unkeep i x.1 (s.setWatcher i x.2)

theorem stopWatcher_unkeep (i : Nat) (s : Engine) :
    stopWatcher i (s.unkeep n) = (stopWatcher i s).unkeep n := by
  have hwatcher : (s.unkeep n).watcher? i = s.watcher? i := rfl
  unfold stopWatcher
  rw [hwatcher]
  cases s.watcher? i with
  | none => rfl
  | some w =>
    refine foldl_unkeep (fun s l => ?_) w.stop.1 (s.setWatcher i w.stop.2)
    rw [notify_unkeep (tearDown_blind n)]
    rfl

theorem build_unkeep (settings : Settings.Listener) (multiplexer : Option Multiplexer)
    (platform : Platform) (s : Engine) :
    build settings multiplexer platform (s.unkeep n) =
      unkeepIn n (build settings multiplexer platform s) := by
  have hnew (a : Alarm) : (s.unkeep n).newTimer a = unkeepIn n (s.newTimer a) := rfl
  have hqueue (s : Engine) (u : Nat) (delay : Time.Duration) :
      (s.unkeep n).queueTimer u delay = unkeepIn n (s.queueTimer u delay) := rfl
  have hlisteners : (s.unkeep n).listeners = s.listeners := rfl
  unfold build
  cases settings.validate with
  | error fault => rfl
  | ok _ =>
    dsimp only
    rw [hlisteners, hnew]
    obtain ⟨u, t⟩ := s.newTimer (.housekeeping s.listeners.length)
    dsimp only [unkeepIn]
    rw [hqueue]
    obtain ⟨_ | _, t⟩ := t.queueTimer u settings.housekeepingInterval
    · rfl
    · refine mk_unkeepIn (ite_unkeep (fun _ => ?_) fun _ => rfl)
      exact shutdownListener_unkeep (tearDown_blind n) s.listeners.length
        { t with listeners := t.listeners ++ [_] }

theorem makeHandler_unkeep (l : Nat) (ops : List NamedOperation) (s : Engine) :
    makeHandler l ops (s.unkeep n) = unkeepIn n (makeHandler l ops s) := by
  induction ops generalizing s with
  | nil => rfl
  | cons op ops ih =>
    unfold makeHandler
    rw [perform_unkeep]
    dsimp only [unkeepIn]
    rw [ih]
    rfl

theorem startLink_unkeep (l : Nat) (s : Engine) :
    startLink l (s.unkeep n) = unkeepIn n (startLink l s) := by
  unfold startLink
  rw [link?_unkeep]
  cases s.link? l with
  | none => rfl
  | some k =>
    have hrequest : (k.unkept (l == n)).request = k.request := rfl
    dsimp only [Option.map_some]
    rw [hrequest]
    cases k.request.begin with
    | error r => exact mk_unkeepIn (tearDown_blind n l .shutdown s)
    | ok r =>
      have hset := setLink_unkeep (n := n) s l { k with request := r }
      dsimp only [Link.unkept] at hset ⊢
      rw [hset, schedule_unkeep (tearDown_blind n)]
      obtain ⟨_ | _, t⟩ := schedule tearDown l .accept (s.setLink l { k with request := r })
      · refine mk_unkeepIn (modifyLink_unkeep (fun k => ?_) t l)
        rfl
      · rfl

theorem setSlot_unkeep {l : Nat} (hl : l ≠ n) (slot : Slot) (s : Engine) :
    { s.unkeep n with slots := (s.unkeep n).slots.set l slot } =
      ({ s with slots := s.slots.set l slot } : Engine).unkeep n := by
  rw [List.set_eq_modify, List.set_eq_modify]
  exact modifySlot_unkeep (fun h => absurd h hl) (fun _ => rfl) s

theorem pushSlot_unkeep (socket : Socket.Endpoint Operation) (s : Engine) :
    { s.unkeep n with slots := (s.unkeep n).slots ++ [.turnedAway socket] } =
      ({ s with slots := s.slots ++ [.turnedAway socket] } : Engine).unkeep n := by
  have hslots : s.slots.modify n (Slot.withLink (·.unkept true)) ++ [Slot.turnedAway socket] =
      (s.slots ++ [Slot.turnedAway socket]).modify n (Slot.withLink (·.unkept true)) := by
    refine List.ext_getElem? fun i => ?_
    rw [List.getElem?_modify, List.getElem?_append, List.getElem?_append, List.length_modify]
    split
    · rw [List.getElem?_modify]
    · cases i - s.slots.length <;> by_cases h : n = i <;> simp [h, Slot.withLink]
  exact congrArg (fun slots => { s with slots }) hslots

theorem installLink_unkeep {l : Nat} (hl : l ≠ n) (i : Nat) (handler : Handler)
    (notes : List Link.Note) (s : Engine) :
    installLink i l handler notes (s.unkeep n) = (installLink i l handler notes s).unkeep n := by
  have hslot : (s.unkeep n).slots[l]? = s.slots[l]? := by
    unfold unkeep modifyLink
    dsimp only
    rw [List.getElem?_modify]
    simp [hl.symm]
  unfold installLink
  rw [hslot]
  split
  · next socket _ => exact congrArg (Engine.modifyListener · i _) (setSlot_unkeep hl _ s)
  · rfl

/-- How an arrival ends, whose handler was made. -/
theorem startLate_unkeep (i l : Nat) (s : Engine) :
    startLink l (if (s.unkeep n).isShuttingDown i then closeWith tearDown l .shutdown (s.unkeep n)
        else s.unkeep n) =
      unkeepIn n (startLink l
        (if s.isShuttingDown i then closeWith tearDown l .shutdown s else s)) := by
  refine Eq.trans (congrArg (startLink l) (ite_unkeep (fun _ => ?_) fun _ => rfl))
    (startLink_unkeep l _)
  exact closeWith_unkeep (tearDown_blind n) l .shutdown s

theorem accept_unkeep {s : Engine} (hn : n ≠ s.slots.length) (i : Nat) (arrival : Arrival) :
    accept i arrival (s.unkeep n) = unkeepIn n (accept i arrival s) := by
  have hlength : (s.unkeep n).slots.length = s.slots.length := List.length_modify ..
  unfold accept
  dsimp only
  rw [pushSlot_unkeep, hlength]
  generalize { s with slots := s.slots ++ [Slot.turnedAway arrival.socket] } = t
  refine ite_unkeepIn (fun _ => rfl) fun _ => ?_
  have hlistener : (t.unkeep n).listener i = t.listener i := rfl
  rw [hlistener]
  cases (t.listener i).tracker.join? (t.listener i).settings.maxConnections with
  | none => rfl
  | some tracker =>
    have hmake := makeHandler_unkeep (n := n) s.slots.length arrival.whileMaking
      (t.modifyListener i fun x => { x with tracker })
    have hinstall : installLink i s.slots.length arrival.handler
        (makeHandler s.slots.length arrival.whileMaking
          ((t.unkeep n).modifyListener i fun x => { x with tracker })).1
        (makeHandler s.slots.length arrival.whileMaking
          ((t.unkeep n).modifyListener i fun x => { x with tracker })).2 =
        (installLink i s.slots.length arrival.handler
          (makeHandler s.slots.length arrival.whileMaking
            (t.modifyListener i fun x => { x with tracker })).1
          (makeHandler s.slots.length arrival.whileMaking
            (t.modifyListener i fun x => { x with tracker })).2).unkeep n := by
      refine Eq.trans (congrArg (fun r : List Link.Note × Engine =>
        installLink i s.slots.length arrival.handler r.1 r.2) hmake) ?_
      exact installLink_unkeep (Ne.symm hn) i arrival.handler _ _
    refine Eq.trans (congrArg (fun u : Engine => startLink s.slots.length
      (if u.isShuttingDown i then closeWith tearDown s.slots.length .shutdown u else u))
        hinstall) ?_
    exact startLate_unkeep i s.slots.length _

/-- **Whether a link is kept makes no difference to any move but one**: the step of its task that
lets it rest if it is. -/
theorem move_unkeep {m : Move} {s : Engine} (hn : n < s.slots.length)
    (h : m = .advance n → s.isAboutToRest n = false) :
    move m (s.unkeep n) = (move m s).unkeep n := by
  cases m with
  | build settings multiplexer platform =>
    exact congrArg Prod.snd (build_unkeep settings multiplexer platform s)
  | accept i arrival =>
    refine ite_unkeep (fun _ => ?_) fun _ => rfl
    exact congrArg Prod.snd (accept_unkeep (Nat.ne_of_lt hn) i arrival)
  | begin place => exact begin_unkeep place s
  | advance l => exact advance_unkeep fun hl => h (hl ▸ rfl)
  | perform self op => exact congrArg Prod.snd (perform_unkeep self op s)
  | wake handle => exact congrArg Prod.snd (wakeComet_unkeep (tearDown_blind n) handle s)
  | pass millis => rfl
  | coordinate => rfl
  | fire place =>
    unfold move
    dsimp only
    rw [runTimer_unkeep (tearDown_blind n)]
    cases runTimer tearDown place s <;> rfl
  | poll i => exact pollRound_unkeep i s
  | stopWatcher i => exact stopWatcher_unkeep i s
  | forget l =>
    refine modifyLink_unkeep (fun k => ?_) s l
    rfl

end LinkEngine.Engine
