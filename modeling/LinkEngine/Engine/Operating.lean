import LinkEngine.Engine.Waking

/-!
# Operations and teardown

`performWith` does one operation to the engine. `tearDownWithin` ends a link: it
takes back the deadline, calls the close hook, whose operations may tear down
further links, closes the stream and gives everything back. The two call each
other, but never for ever: a link is marked as closed before anything else
happens, and what is closed is not torn down again, so the number of links that
are still open bounds the depth (`openLinks`).
-/

namespace LinkEngine.Engine

open Connection (CloseReason)
open Link (Answer Note)

/-- How long an elapse takes longer than was asked for. -/
def elapseSlack : Nat := 3

/-- How long a multiplexer's script lets pass for deadlines to fire. -/
def deadlineWhile : Nat := 60

/-- Adds to the script of a listener's multiplexer. -/
def extendScript (i : Nat) (more : List Multiplexer.Registration) (s : Engine) : Engine :=
  s.modifyListener i fun x =>
    match x.multiplexer with
    | some (.scripted script) => { x with multiplexer := some (.scripted (script ++ more)) }
    | _ => x

/-- Works on the socket of a slot. -/
def modifySocket (l : Nat)
    (f : Socket.Endpoint Operation → Socket.Endpoint Operation) (s : Engine) : Engine :=
  { s with slots := s.slots.modify l (Slot.withSocket f) }

/-- Does something to a link that somebody still refers to. -/
def withReachable (s : Engine) (l : Nat) (f : Engine → Answer × Engine) : Answer × Engine :=
  if s.isReachable l then f s else (.nothing, s)

/-- Does one operation, in the context of link `self`. -/
def performWith (tear : Teardown) (self : Nat) (op : Operation) (s : Engine) : Answer × Engine :=
  match op with
  | .wake name =>
    match s.handles.lookup name with
    | none => (.nothing, s)
    | some h => let (b, s) := wakeComet tear h s; (.flag b, s)
  | .isCurrent name =>
    match s.handles.lookup name with
    | none => (.nothing, s)
    | some h => (.flag (s.isCurrent h), s)
  | .notify l =>
    let l := l.getD self
    s.withReachable l fun s => let (b, s) := notify tear l s; (.flag b, s)
  | .killKeepalive l =>
    let l := l.getD self
    s.withReachable l fun s => (.nothing, s.modifyLink l fun k => { k with killKeepalive := true })
  | .close l reason =>
    let l := l.getD self
    s.withReachable l fun s => (.nothing, closeWith tear l (reason.getD .shutdown) s)
  | .feed l bytes => (.nothing, modifySocket (l.getD self) (·.feed bytes) s)
  | .hangUp l => (.nothing, modifySocket (l.getD self) (·.hangUp) s)
  | .spoil l call kinds => (.nothing, modifySocket (l.getD self) (·.addFailures call kinds) s)
  | .shutdown i => (.nothing, shutdownListener tear i s)
  | .trigger reason => let (b, s) := trigger tear reason s; (.flag b, s)
  | .refuse on => (.nothing, { s with refusing := on })
  | .stopScheduler => (.nothing, { s with scheduler := s.scheduler.shutdown })
  | .script i more => (.nothing, extendScript i more s)
  | .elapse millis => (.nothing, s.elapse (millis + elapseSlack))
  | .runTimers => let (n, s) := runTimers tear s; (.count n, s)

/-- Does operations one after the other and notes their answers on link
`self`. -/
def performNoted (tear : Teardown) (self : Nat) (ops : List NamedOperation) (s : Engine) : Engine :=
  ops.foldl (fun s op =>
    let (answer, s) := performWith tear self op.operation s
    s.note self (.did op.label answer)) s

/-- Does operations one after the other, without a note. -/
def performAll (tear : Teardown) (self : Nat) (ops : List Operation) (s : Engine) : Engine :=
  ops.foldl (fun s op => (performWith tear self op s).2) s

/-- Calls the close hook of a link. A panic ends the hook and nothing else. -/
def callClose (tear : Teardown) (l : Nat) (reason : CloseReason) (s : Engine) : Engine :=
  match s.link? l with
  | none => s
  | some k =>
    let s := s.note l (.closing reason)
    if k.handler.panicsOnClose then s.note l (.ended .close .panicked)
    else
      (performNoted tear l k.handler.close s).note l (.ended .close (.returned false))

/-- Closes the stream of a link and gives back everything it had. -/
def giveBack (l : Nat) (reason : CloseReason) (s : Engine) : Engine :=
  match s.link? l with
  | none => s
  | some k =>
    let (_, stream) := k.stream.close
    let machine := (k.machine.apply .close).toOption.getD k.machine
    let (buffers, stream) := stream.takeBuffers
    let k := { k with
      stream
      machine := (machine.apply .destroy).toOption.getD machine
      request := k.request.destroyed.2
      counted := false }
    (s.setLink l k).modifyListener k.listener fun x =>
      { x with
        registry := x.registry.erase l
        buffers := (x.buffers.release buffers).2
        stats := x.stats.recordClose reason
        tracker := x.tracker.leave }

/-- Marks a link as closed for a reason, and takes back its deadline and what it
asked for. -/
def markClosed (l : Nat) (reason : CloseReason) (s : Engine) : Engine :=
  let s := s.modifyLink l fun k => { k with closed := true, closeReason := some reason }
  (s.disarm l).modifyLink l fun k => { k with comet := none, pending := .none }

/-- Tears down a link for a reason, unless that was done before. `depth` bounds
how many links are torn down within one another. -/
def tearDownWithin : Nat → Teardown
  | 0, _, _, s => s
  | depth + 1, l, reason, s =>
    match s.link? l with
    | none => s
    | some k =>
      if k.closed then s
      else giveBack l reason (callClose (tearDownWithin depth) l reason (markClosed l reason s))

/-- Tears down a link for a reason, unless that was done before. -/
def tearDown : Teardown := fun l reason s => tearDownWithin s.openLinks l reason s

/-- Does one operation, in the context of link `self`. -/
def perform (self : Nat) (op : Operation) (s : Engine) : Answer × Engine :=
  performWith tearDown self op s

end LinkEngine.Engine
