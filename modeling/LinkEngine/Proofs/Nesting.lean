import LinkEngine.Shutdown.Signal
import Mathlib.Data.List.Range

/-!
# Calls on a signal, one within another

A hook that runs may itself trigger the signal and register further hooks, so calls on a
signal nest. Here they are played on a machine with a stack of what is under way
(`Machine`): every call, from whatever depth, works on the signal as it stands, the first
trigger takes out the hooks that wait and goes through them, and a registration under a
raised signal calls its hook. What happens is logged, with a number for each trigger and
for each registration.

Under a raised signal every hook returns, from whatever depth it is called (`returns`), and
what is logged meanwhile is well-bracketed (`Span`): which hooks were called and returned,
within which registration, and that triggers were refused at once is read off the brackets.
-/

namespace LinkEngine.Shutdown

/-! ## Calls, one within another -/

/-- A call on a signal. -/
inductive Call where
  | trigger (reason : Reason)
  | register (hook : Hook)
  deriving DecidableEq, Repr

namespace Call

/-- The call as a request from outside. -/
def request : Call → Signal.Request
  | .trigger reason => .trigger reason
  | .register hook => .register hook

/-- The reason of a trigger. -/
def reason? : Call → Option Reason
  | .trigger reason => some reason
  | .register _ => none

end Call

/-- What happens in the course of calls. -/
inductive Event where
  /-- The trigger of this number is called. -/
  | asked (trigger : Nat) (reason : Reason)
  /-- It returns, to a hook if it is nested. -/
  | answered (trigger : Nat) (nested won : Bool)
  /-- The registration of this number is called; the number is also that of its hook. -/
  | registered (hook : Nat)
  /-- It returns. -/
  | accepted (hook : Nat)
  /-- The hook is called with this reason. -/
  | began (hook : Nat) (reason : Reason)
  | ran (hook : Nat) (name : String) (reason : Reason)
  /-- The hook returns. -/
  | ended (hook : Nat)
  deriving DecidableEq, Repr

namespace Event

/-- The number of a trigger that is called. -/
def asked? : Event → Option Nat
  | .asked trigger _ => some trigger
  | _ => none

/-- The number of a trigger that returns. -/
def answered? : Event → Option Nat
  | .answered trigger _ _ => some trigger
  | _ => none

/-- The number of a hook that is registered. -/
def registered? : Event → Option Nat
  | .registered hook => some hook
  | _ => none

/-- The number of a hook that is called. -/
def began? : Event → Option Nat
  | .began hook _ => some hook
  | _ => none

/-- The number of a hook that returns. -/
def ended? : Event → Option Nat
  | .ended hook => some hook
  | _ => none

/-- The reason a hook is given. -/
def reason? : Event → Option Reason
  | .began _ reason | .ran _ _ reason => some reason
  | _ => none

/-- A hook of a number below `n` is called, or returns. -/
def isTurnBelow (n : Nat) : Event → Bool
  | .began hook _ | .ended hook => hook < n
  | _ => false

/-- What a hook notes of it. -/
def note? : Event → Option Note
  | .ran _ name reason => some (.ran name reason)
  | .answered _ true won => some (.triggered won)
  | _ => none

/-- What a caller from outside is answered. -/
def answer? : Event → Option Bool
  | .answered _ false won => some won
  | _ => none

end Event

/-- What is under way at one depth. -/
inductive Frame where
  /-- The hook of this number, called with this reason, has this left to do. -/
  | hook (number : Nat) (reason : Reason) (rest : Hook)
  /-- The trigger of this number goes through the hooks that it took out. -/
  | firing (trigger : Nat) (reason : Reason) (taken : List (Hook × Nat))
  /-- The registration of this number waits for its hook to return. -/
  | registering (hook : Nat)
  deriving Repr

/-- A signal under calls, with the stack of what is under way. -/
structure Machine where
  /-- The calls to come from outside, each when the one before it has returned. -/
  calls : List Call
  stack : List Frame := []
  reason : Option Reason := none
  /-- The hooks that wait, with their numbers. -/
  waiting : List (Hook × Nat) := []
  /-- How many triggers were called, and how many hooks registered. -/
  triggers : Nat := 0
  hooks : Nat := 0
  log : List Event := []
  deriving Repr

namespace Machine

variable {m m' m'' : Machine}

/-- The signal as it stands. -/
def signal (m : Machine) : Signal := { reason := m.reason, waiting := m.waiting.map (·.1) }

/-- Logs events. -/
def say (m : Machine) (events : List Event) : Machine := { m with log := m.log ++ events }

/-- A trigger is called. The first one takes out the hooks that wait. -/
def trigger (m : Machine) (reason : Reason) : Machine :=
  let asked := { m with triggers := m.triggers + 1 }.say [.asked m.triggers reason]
  match m.reason with
  | some _ => asked.say [.answered m.triggers (!m.stack.isEmpty) false]
  | none =>
    { asked with
      reason := some reason
      waiting := []
      stack := .firing m.triggers reason m.waiting :: m.stack }

/-- A hook is registered. It waits, or is called at once. -/
def register (m : Machine) (hook : Hook) : Machine :=
  let registered := { m with hooks := m.hooks + 1 }.say [.registered m.hooks]
  match m.reason with
  | some reason =>
    { registered with stack := .hook m.hooks reason hook :: .registering m.hooks :: m.stack }.say
      [.began m.hooks reason]
  | none => { registered with waiting := m.waiting ++ [(hook, m.hooks)] }.say [.accepted m.hooks]

/-- A call, from whatever depth. -/
def perform (m : Machine) : Call → Machine
  | .trigger reason => m.trigger reason
  | .register hook => m.register hook

/-- The machine goes on at its greatest depth. -/
def step (m : Machine) : Machine :=
  match m.stack with
  | [] =>
    match m.calls with
    | [] => m
    | call :: calls => { m with calls }.perform call
  | .hook number _ .done :: below => { m with stack := below }.say [.ended number]
  | .hook number reason (.note name next) :: below =>
    { m with stack := .hook number reason next :: below }.say [.ran number name reason]
  | .hook number reason (.trigger asked next) :: below =>
    { m with stack := .hook number reason next :: below }.perform (.trigger asked)
  | .hook number reason (.register hook next) :: below =>
    { m with stack := .hook number reason next :: below }.perform (.register hook)
  | .firing number _ [] :: below =>
    { m with stack := below }.say [.answered number (!below.isEmpty) true]
  | .firing number reason ((body, hook) :: taken) :: below =>
    { m with stack := .hook hook reason body :: .firing number reason taken :: below }.say
      [.began hook reason]
  | .registering hook :: below => { m with stack := below }.say [.accepted hook]

/-- The machine after so many steps. -/
def after (m : Machine) : Nat → Machine
  | 0 => m
  | n + 1 => m.step.after n

/-- No call is under way or to come. -/
def isDone (m : Machine) : Bool := m.stack.isEmpty && m.calls.isEmpty

/-- Some number of steps leads from one to the other. -/
def Leads (m m' : Machine) : Prop := ∃ n, m.after n = m'

theorem Leads.refl (m : Machine) : Leads m m := ⟨0, rfl⟩

theorem Leads.step (h : Leads m.step m') : Leads m m' := by
  obtain ⟨n, rfl⟩ := h
  exact ⟨n + 1, rfl⟩

theorem after_add (m : Machine) (a b : Nat) : m.after (a + b) = (m.after a).after b := by
  induction a generalizing m with
  | zero => rw [Nat.zero_add]; rfl
  | succ a ih => rw [Nat.succ_add]; exact ih m.step

theorem Leads.trans (h : Leads m m') (h' : Leads m' m'') : Leads m m'' := by
  obtain ⟨a, rfl⟩ := h
  obtain ⟨b, rfl⟩ := h'
  exact ⟨a + b, m.after_add a b⟩

end Machine

/-! ## What happens under a raised signal -/

/-- Events under a signal raised for `r`: the waiting hooks `turns` are called one after the
other; `n` hooks are registered, with numbers from `h` on, and each is called within its
registration; and `k` triggers, with numbers from `t` on, are refused at once. -/
inductive Span (r : Reason) : (turns : List Nat) → (h n t k : Nat) → List Event → Prop where
  | nil (h t : Nat) : Span r [] h 0 t 0 []
  | ran {turns : List Nat} {h n t k : Nat} {es : List Event} (number : Nat) (name : String)
      (rest : Span r turns h n t k es) : Span r turns h n t k (.ran number name r :: es)
  | refused {turns : List Nat} {h n t k : Nat} {es : List Event} (asked : Reason) (nested : Bool)
      (rest : Span r turns h n (t + 1) k es) :
      Span r turns h n t (1 + k) (.asked t asked :: .answered t nested false :: es)
  | called {turns : List Nat} {h n n' t k k' : Nat} {body es : List Event}
      (inner : Span r [] (h + 1) n t k body)
      (rest : Span r turns (h + (1 + n)) n' (t + k) k' es) :
      Span r turns h (1 + n + n') t (k + k')
        (.registered h :: .began h r :: (body ++ .ended h :: .accepted h :: es))
  | turn {turns : List Nat} {h n n' t k k' : Nat} {body es : List Event} (i : Nat)
      (inner : Span r [] h n t k body) (rest : Span r turns (h + n) n' (t + k) k' es) :
      Span r (i :: turns) h (n + n') t (k + k') (.began i r :: (body ++ .ended i :: es))

namespace Machine

variable {m m' : Machine} {r : Reason} {below : List Frame}

/-- A machine that has gone on: these numbers were given, and this was logged. -/
def onward (m : Machine) (stack : List Frame) (n k : Nat) (es : List Event) : Machine :=
  { m with stack, hooks := m.hooks + n, triggers := m.triggers + k, log := m.log ++ es }

theorem onward_onward (m : Machine) (stack stack' : List Frame) (n n' k k' : Nat)
    (es es' : List Event) : (m.onward stack n k es).onward stack' n' k' es' =
      m.onward stack' (n + n') (k + k') (es ++ es') := by
  simp [onward, Nat.add_assoc]

/-- After one step that led onward, some number of steps leads further. -/
theorem Leads.onward {stack stack' : List Frame} {n n' k k' : Nat} {es es' : List Event}
    (hstep : m.step = m.onward stack n k es)
    (h : Leads (m.onward stack n k es) ((m.onward stack n k es).onward stack' n' k' es')) :
    Leads m (m.onward stack' (n + n') (k + k') (es ++ es')) := by
  rw [onward_onward] at h
  exact Leads.step (hstep ▸ h)

/-- Under a signal raised for `r` this hook returns, from whatever depth it is called, and
has noted what it notes. -/
def Returns (r : Reason) (body : Hook) : Prop :=
  ∀ (m : Machine) (number : Nat) (below : List Frame), m.reason = some r →
    m.stack = .hook number r body :: below →
    ∃ n k es, Span r [] m.hooks n m.triggers k es ∧ es.filterMap Event.note? = body.run r ∧
      es.filterMap Event.answer? = [] ∧ Leads m (m.onward below n k (es ++ [.ended number]))

/-- So does its registration. -/
theorem Returns.register {hook : Hook} (h : Returns r hook) (hr : m.reason = some r) :
    ∃ n k es, Span r [] (m.hooks + 1) n m.triggers k es ∧ es.filterMap Event.note? = hook.run r ∧
      es.filterMap Event.answer? = [] ∧
      Leads (m.register hook) (m.onward m.stack (1 + n) k (.registered m.hooks ::
        .began m.hooks r :: (es ++ [.ended m.hooks, .accepted m.hooks]))) := by
  have hcall : m.register hook = m.onward
      (.hook m.hooks r hook :: .registering m.hooks :: m.stack) 1 0
      [.registered m.hooks, .began m.hooks r] := by
    simp [Machine.register, hr, say, onward]
  obtain ⟨n, k, es, hspan, hnotes, hanswers, hleads⟩ :=
    h (m.register hook) m.hooks (.registering m.hooks :: m.stack) (hcall ▸ hr) (hcall ▸ rfl)
  rw [hcall] at hspan hleads ⊢
  refine ⟨n, k, es, hspan, hnotes, hanswers, hleads.trans (Leads.step ?_)⟩
  rw [onward_onward]
  have hreturn : ∀ {n k : Nat} {es : List Event},
      (m.onward (.registering m.hooks :: m.stack) n k es).step =
        m.onward m.stack n k (es ++ [.accepted m.hooks]) := by
    intro n k es
    simp [step, say, onward]
  rw [hreturn]
  simpa using Leads.refl _

theorem returns (r : Reason) (body : Hook) : Returns r body := by
  induction body with
  | done =>
    intro m number below hr hs
    have hstep : m.step = m.onward below 0 0 [.ended number] := by
      rw [step, hs]
      rfl
    exact ⟨0, 0, [], .nil .., rfl, rfl, Leads.step (hstep ▸ .refl _)⟩
  | note name next ih =>
    intro m number below hr hs
    have hstep : m.step = m.onward (.hook number r next :: below) 0 0 [.ran number name r] := by
      rw [step, hs]
      rfl
    obtain ⟨n, k, es, hspan, hnotes, hanswers, hleads⟩ := ih m.step number below
      (hstep ▸ hr) (hstep ▸ rfl)
    rw [hstep] at hspan hleads
    refine ⟨n, k, _, .ran number name hspan, ?_, hanswers, ?_⟩
    · exact congrArg (Note.ran name r :: ·) hnotes
    · simpa using hleads.onward hstep
  | trigger asked next ih =>
    intro m number below hr hs
    have hstep : m.step = m.onward (.hook number r next :: below) 0 1
        [.asked m.triggers asked, .answered m.triggers true false] := by
      rw [step, hs]
      simp [perform, trigger, hr, say, onward]
    obtain ⟨n, k, es, hspan, hnotes, hanswers, hleads⟩ := ih m.step number below
      (hstep ▸ hr) (hstep ▸ rfl)
    rw [hstep] at hspan hleads
    refine ⟨n, 1 + k, _, .refused asked true hspan, ?_, hanswers, ?_⟩
    · exact congrArg (Note.triggered false :: ·) hnotes
    · simpa using hleads.onward hstep
  | register hook next ihh ihn =>
    intro m number below hr hs
    have hstep : m.step = { m with stack := .hook number r next :: below }.register hook := by
      rw [step, hs]
      rfl
    obtain ⟨n, k, body, hbody, hinner, hnone, hregister⟩ :=
      ihh.register (m := { m with stack := .hook number r next :: below }) hr
    obtain ⟨n', k', es, hspan, hnotes, hanswers, hleads⟩ := ihn
      (m.onward (.hook number r next :: below) (1 + n) k (.registered m.hooks ::
        .began m.hooks r :: (body ++ [.ended m.hooks, .accepted m.hooks]))) number below hr rfl
    have hlog : .registered m.hooks :: .began m.hooks r ::
        (body ++ [.ended m.hooks, .accepted m.hooks]) ++ (es ++ [.ended number]) =
        .registered m.hooks :: .began m.hooks r ::
          (body ++ .ended m.hooks :: .accepted m.hooks :: es) ++ [.ended number] := by simp
    refine ⟨1 + n + n', k + k', _, .called hbody hspan, ?_, ?_, ?_⟩
    · show (body ++ _ :: _ :: es).filterMap Event.note? = hook.run r ++ next.run r
      rw [List.filterMap_append, hinner, ← hnotes]
      rfl
    · show (body ++ _ :: _ :: es).filterMap Event.answer? = []
      rw [List.filterMap_append, hnone]
      exact hanswers
    · refine Leads.step (hstep ▸ hregister.trans ?_)
      rw [onward_onward, hlog] at hleads
      exact hleads

/-- The hooks that were taken out are called one after the other. -/
theorem firing_leads {taken : List (Hook × Nat)} {number : Nat} (hr : m.reason = some r)
    (hs : m.stack = .firing number r taken :: below) :
    ∃ n k es, Span r (taken.map (·.2)) m.hooks n m.triggers k es ∧
      es.filterMap Event.note? = (taken.map fun w => w.1.run r).flatten ∧
      es.filterMap Event.answer? = [] ∧
      Leads m (m.onward below n k (es ++ [.answered number (!below.isEmpty) true])) := by
  induction taken generalizing m with
  | nil =>
    have hstep : m.step = m.onward below 0 0 [.answered number (!below.isEmpty) true] := by
      rw [step, hs]
      rfl
    exact ⟨0, 0, [], .nil .., rfl, rfl, Leads.step (hstep ▸ .refl _)⟩
  | cons w taken ih =>
    obtain ⟨body, hook⟩ := w
    have hstep : m.step = m.onward (.hook hook r body :: .firing number r taken :: below) 0 0
        [.began hook r] := by
      rw [step, hs]
      rfl
    obtain ⟨n, k, ran, hspan, hinner, hnone, hhook⟩ := returns r body m.step hook
      (.firing number r taken :: below) (hstep ▸ hr) (hstep ▸ rfl)
    rw [hstep] at hspan hhook
    have hreturned := hhook.onward hstep
    rw [Nat.zero_add, Nat.zero_add] at hreturned
    obtain ⟨n', k', es, hfiring, hnotes, hanswers, hleads⟩ := ih
      (m := m.onward (.firing number r taken :: below) n k
        ([.began hook r] ++ (ran ++ [.ended hook])))
      hr rfl
    have hlog : [.began hook r] ++ (ran ++ [.ended hook]) ++
        (es ++ [.answered number (!below.isEmpty) true]) =
        .began hook r :: (ran ++ .ended hook :: es) ++
          [.answered number (!below.isEmpty) true] := by simp
    refine ⟨n + n', k + k', _, .turn hook hspan hfiring, ?_, ?_, hreturned.trans ?_⟩
    · show (ran ++ _ :: es).filterMap Event.note? = body.run r ++ _
      rw [List.filterMap_append, hinner, ← hnotes]
      rfl
    · show (ran ++ _ :: es).filterMap Event.answer? = []
      rw [List.filterMap_append, hnone]
      exact hanswers
    · rw [onward_onward, hlog] at hleads
      exact hleads

end Machine

/-- What is logged under a signal raised for `r`: hooks are given that reason, and triggers
do not win. -/
def Event.Proper (r : Reason) : Event → Prop
  | .began _ reason | .ran _ _ reason => reason = r
  | .answered _ _ won => won = false
  | _ => True

/-- Nothing happens between the call of this trigger and its return, and it does not win. -/
def RefusedAtOnce (trigger : Nat) (es : List Event) : Prop :=
  ∃ asked nested, [.asked trigger asked, .answered trigger nested false] <:+: es

/-- The registration of this hook calls it at once and returns when the hook does; no hook
with a number as low is called meanwhile. -/
def CalledWithin (r : Reason) (i : Nat) (es : List Event) : Prop :=
  ∃ body, .registered i :: .began i r :: (body ++ [.ended i, .accepted i]) <:+: es ∧
    ∀ j reason, .began j reason ∈ body → i < j

theorem RefusedAtOnce.mono {trigger : Nat} {es es' : List Event} (h : RefusedAtOnce trigger es)
    (hle : es <:+: es') : RefusedAtOnce trigger es' := by
  obtain ⟨asked, nested, h⟩ := h
  exact ⟨asked, nested, h.trans hle⟩

theorem CalledWithin.mono {r : Reason} {i : Nat} {es es' : List Event} (h : CalledWithin r i es)
    (hle : es <:+: es') : CalledWithin r i es' := by
  obtain ⟨body, h, hlater⟩ := h
  exact ⟨body, h.trans hle, hlater⟩

namespace Span

variable {r : Reason} {turns : List Nat} {h n t k : Nat} {es : List Event}

private theorem range'_called (h n n' : Nat) :
    List.range' h (1 + n + n') = h :: (List.range' (h + 1) n ++ List.range' (h + (1 + n)) n') := by
  rw [← List.range'_append_1, Nat.add_comm 1 n, List.range'_succ]
  rfl

/-- Triggers are numbered as they are called. -/
theorem asked (hs : Span r turns h n t k es) : es.filterMap Event.asked? = List.range' t k := by
  induction hs with
  | nil => rfl
  | ran number name _ ih => exact ih
  | refused _ _ _ ih =>
    rw [Nat.add_comm 1, List.range'_succ, ← ih]
    rfl
  | called _ _ ihi ih | turn _ _ _ ihi ih =>
    rw [← List.range'_append_1, ← ihi, ← ih, ← List.filterMap_append]
    simp only [List.filterMap_cons, List.filterMap_append, Event.asked?]

/-- Each returns. -/
theorem answered (hs : Span r turns h n t k es) :
    es.filterMap Event.answered? = List.range' t k := by
  induction hs with
  | nil => rfl
  | ran number name _ ih => exact ih
  | refused _ _ _ ih =>
    rw [Nat.add_comm 1, List.range'_succ, ← ih]
    rfl
  | called _ _ ihi ih | turn _ _ _ ihi ih =>
    rw [← List.range'_append_1, ← ihi, ← ih, ← List.filterMap_append]
    simp only [List.filterMap_cons, List.filterMap_append, Event.answered?]

/-- Hooks are numbered as they are registered. -/
theorem registered (hs : Span r turns h n t k es) :
    es.filterMap Event.registered? = List.range' h n := by
  induction hs with
  | nil => rfl
  | ran number name _ ih => exact ih
  | refused _ _ _ ih => exact ih
  | called _ _ ihi ih =>
    rw [range'_called, ← ihi, ← ih]
    simp only [List.filterMap_cons, List.filterMap_append, Event.registered?]
  | turn _ _ _ ihi ih =>
    rw [← List.range'_append_1, ← ihi, ← ih]
    simp only [List.filterMap_cons, List.filterMap_append, Event.registered?]

/-- The hooks that waited and those that are registered are called once each. -/
theorem began (hs : Span r turns h n t k es) :
    (es.filterMap Event.began?).Perm (turns ++ List.range' h n) := by
  induction hs with
  | nil => exact .refl _
  | ran number name _ ih => exact ih
  | refused _ _ _ ih => exact ih
  | called _ _ ihi ih =>
    rw [range'_called]
    simp only [List.filterMap_cons, List.filterMap_append, Event.began?]
    refine ((ihi.append ih).cons _).trans (.trans ?_ List.perm_middle.symm)
    rw [List.nil_append]
    exact (List.perm_append_comm_assoc ..).cons _
  | turn _ _ _ ihi ih =>
    rw [← List.range'_append_1]
    simp only [List.filterMap_cons, List.filterMap_append, Event.began?]
    exact ((ihi.append ih).trans (List.perm_append_comm_assoc ..)).cons _

/-- Each of them returns. -/
theorem ended (hs : Span r turns h n t k es) :
    (es.filterMap Event.ended?).Perm (turns ++ List.range' h n) := by
  induction hs with
  | nil => exact .refl _
  | ran number name _ ih => exact ih
  | refused _ _ _ ih => exact ih
  | called _ _ ihi ih =>
    rw [range'_called]
    simp only [List.filterMap_cons, List.filterMap_append, Event.ended?]
    refine List.perm_middle.trans (.trans ?_ List.perm_middle.symm)
    exact ((ihi.append ih).trans (List.perm_append_comm_assoc ..)).cons _
  | turn _ _ _ ihi ih =>
    rw [← List.range'_append_1]
    simp only [List.filterMap_cons, List.filterMap_append, Event.ended?]
    refine List.perm_middle.trans ?_
    exact ((ihi.append ih).trans (List.perm_append_comm_assoc ..)).cons _

/-- Hooks are given the one reason, and triggers are refused. -/
theorem proper (hs : Span r turns h n t k es) : ∀ e ∈ es, e.Proper r := by
  induction hs with
  | nil => exact nofun
  | ran _ _ _ ih => exact List.forall_mem_cons.2 ⟨rfl, ih⟩
  | refused _ _ _ ih =>
    exact List.forall_mem_cons.2 ⟨trivial, List.forall_mem_cons.2 ⟨rfl, ih⟩⟩
  | called _ _ ihi ih =>
    refine List.forall_mem_cons.2 ⟨trivial, List.forall_mem_cons.2 ⟨rfl, ?_⟩⟩
    exact List.forall_mem_append.2 ⟨ihi, List.forall_mem_cons.2 ⟨trivial,
      List.forall_mem_cons.2 ⟨trivial, ih⟩⟩⟩
  | turn _ _ _ ihi ih =>
    refine List.forall_mem_cons.2 ⟨rfl, List.forall_mem_append.2 ⟨ihi, ?_⟩⟩
    exact List.forall_mem_cons.2 ⟨trivial, ih⟩

/-- Each trigger is refused before anything else happens. -/
theorem refusedAtOnce (hs : Span r turns h n t k es) {trigger : Nat} (hlow : t ≤ trigger)
    (hhigh : trigger < t + k) : RefusedAtOnce trigger es := by
  induction hs with
  | nil => omega
  | ran number name _ ih => exact (ih hlow hhigh).mono (List.suffix_cons ..).isInfix
  | @refused _ _ _ t _ es asked nested _ ih =>
    by_cases htrigger : trigger = t
    · subst htrigger
      exact ⟨asked, nested, (List.prefix_append _ es).isInfix⟩
    · exact (ih (by omega) (by omega)).mono ((List.suffix_append [_, _] es).isInfix)
  | @called _ h _ _ t k _ body es _ _ ihi ih =>
    by_cases hinner : trigger < t + k
    · exact (ihi hlow hinner).mono (List.infix_append [_, _] body _)
    · refine (ih (by omega) (by omega)).mono (List.IsSuffix.isInfix ?_)
      exact ⟨.registered h :: .began h r :: (body ++ [.ended h, .accepted h]), by simp⟩
  | @turn _ _ _ _ t k _ body es i _ _ ihi ih =>
    by_cases hinner : trigger < t + k
    · exact (ihi hlow hinner).mono (List.infix_append [_] body _)
    · refine (ih (by omega) (by omega)).mono (List.IsSuffix.isInfix ?_)
      exact ⟨.began i r :: (body ++ [.ended i]), by simp⟩

/-- Each hook that is registered is called within its registration. -/
theorem calledWithin (hs : Span r turns h n t k es) {i : Nat} (hlow : h ≤ i) (hhigh : i < h + n) :
    CalledWithin r i es := by
  induction hs with
  | nil => omega
  | ran number name _ ih => exact (ih hlow hhigh).mono (List.suffix_cons ..).isInfix
  | refused asked nested _ ih =>
    exact (ih hlow hhigh).mono (List.suffix_append [_, _] _).isInfix
  | @called _ h n _ _ _ _ body es inner _ ihi ih =>
    by_cases hown : i = h
    · subst hown
      refine ⟨body, ⟨[], es, by simp⟩, fun j reason hj => ?_⟩
      have hmem : j ∈ List.range' (i + 1) n :=
        inner.began.mem_iff.1 (List.mem_filterMap.2 ⟨_, hj, rfl⟩)
      exact (List.mem_range'_1.1 hmem).1
    · by_cases hinner : i < h + (1 + n)
      · exact (ihi (by omega) (by omega)).mono (List.infix_append [_, _] body _)
      · refine (ih (by omega) (by omega)).mono (List.IsSuffix.isInfix ?_)
        exact ⟨.registered h :: .began h r :: (body ++ [.ended h, .accepted h]), by simp⟩
  | @turn _ h n _ _ _ _ body es number _ _ ihi ih =>
    by_cases hinner : i < h + n
    · exact (ihi hlow hinner).mono (List.infix_append [_] body _)
    · refine (ih (by omega) (by omega)).mono (List.IsSuffix.isInfix ?_)
      exact ⟨.began number r :: (body ++ [.ended number]), by simp⟩

/-- The hooks that waited have their turns one after the other. -/
theorem inTurn (hs : Span r turns h n t k es) {b : Nat} (hturns : ∀ i ∈ turns, i < b)
    (hb : b ≤ h) : es.filter (Event.isTurnBelow b) =
      turns.flatMap fun i => [.began i r, .ended i] := by
  induction hs with
  | nil => rfl
  | ran number name _ ih => exact ih hturns hb
  | refused _ _ _ ih => exact ih hturns hb
  | @called _ h _ _ _ _ _ _ _ _ _ ihi ih =>
    have hregistered : Event.isTurnBelow b (.registered h) = false := rfl
    have hbegan : Event.isTurnBelow b (.began h r) = false := decide_eq_false (by omega)
    have hended : Event.isTurnBelow b (.ended h) = false := decide_eq_false (by omega)
    have haccepted : Event.isTurnBelow b (.accepted h) = false := rfl
    simp [hregistered, hbegan, hended, haccepted, ihi nofun (by omega),
      ih hturns (by omega)]
  | @turn _ _ _ _ _ _ _ _ _ i _ _ ihi ih =>
    have hi : i < b := hturns i List.mem_cons_self
    have hbegan : Event.isTurnBelow b (.began i r) = true := decide_eq_true hi
    have hended : Event.isTurnBelow b (.ended i) = true := decide_eq_true hi
    have hlater : ∀ j ∈ _, j < b := fun j hj => hturns j (List.mem_cons_of_mem _ hj)
    simp [hbegan, hended, ihi nofun hb, ih hlater (by omega)]

end Span

end LinkEngine.Shutdown
