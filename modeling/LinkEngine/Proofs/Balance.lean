import LinkEngine.Connection.Request

/-!
# No wake is lost and no park has two owners

What a history of operations on the ownership state tells, in whatever order the
driving task and its wakers came: each time the connection was parked, one waker took
it over, unless it is still parked or was torn down while it was; each wake that was
recorded was taken up, unless it still is recorded or was torn down with the
connection (`balanced`). Both are sums over one equation for each operation.
-/

namespace LinkEngine.Connection.Request

variable {r : Request} {m : Move} (op : Operation) (ops more : List Operation)

private theorem countP_cons_toNat {α : Type} (p : α → Bool) (a : α) (as : List α) :
    (a :: as).countP p = (p a).toNat + as.countP p := by
  cases h : p a with
  | true => rw [List.countP_cons_of_pos h, Nat.add_comm]; rfl
  | false => rw [List.countP_cons_of_neg (by simp [h])]; exact (Nat.zero_add _).symm

/-! ## What a move is -/

namespace Move

/-- A waker took the connection over. -/
def takesOver (m : Move) : Bool := m.answer == .waking .resume

/-- A wake was recorded for the driving task. -/
def defers (m : Move) : Bool := m.answer == .waking .deferred

/-- The connection was parked, between requests or in an asynchronous one. -/
def parks (m : Move) : Bool :=
  m.operation == .rest && m.answer == .done || m.answer == .parking .suspended

/-- The driving task took up a wake that was recorded: when it tried to park, when it
asked for one, or when it ended the asynchronous request. -/
def takesUp (m : Move) : Bool :=
  m.answer == .parking .woken ||
    (m.operation == .takeWake || m.operation == .completeAsync) && m.before == .asyncWake

/-- The connection was torn down, out of a state as described. -/
def buries (p : Request → Bool) (m : Move) : Bool :=
  match m.answer with
  | .previous (some r) => p r
  | _ => false

/-- The operation was refused, or found nothing to do. -/
def isVain (m : Move) : Bool :=
  match m.answer with
  | .refused _ | .waking .ignored | .flag false | .previous none => true
  | _ => false

end Move

/-- The move that an operation makes. -/
def act (r : Request) (op : Operation) : Move :=
  { before := r, operation := op, answer := (r.perform op).1, after := (r.perform op).2 }

/-- The state that a sequence of operations leaves. -/
def reached (r : Request) : List Operation → Request
  | [] => r
  | op :: ops => (r.act op).after.reached ops

theorem history_cons : r.history (op :: ops) = r.act op :: (r.act op).after.history ops := rfl

theorem reached_append : r.reached (ops ++ more) = (r.reached ops).reached more := by
  induction ops generalizing r with
  | nil => rfl
  | cons op ops ih => exact ih

/-- Each move of a history is made by one of the operations. -/
theorem exists_act_of_mem (h : m ∈ r.history ops) : ∃ r' op, m = act r' op := by
  induction ops generalizing r with
  | nil => cases h
  | cons op ops ih =>
    rw [history_cons] at h
    rcases List.mem_cons.1 h with rfl | h
    · exact ⟨r, op, rfl⟩
    · exact ih h

/-! ## One operation -/

/-- A connection is parked after a move where it was parked by it, or was before and
neither taken over nor torn down. -/
theorem act_parked (r : Request) (op : Operation) :
    (r.act op).takesOver.toNat + (r.act op).after.isParked.toNat +
        ((r.act op).buries isParked).toNat =
      (r.act op).parks.toNat + r.isParked.toNat := by
  cases r <;> cases op <;> rfl

/-- A wake is recorded after a move where the move recorded it, or it was before and
neither taken up nor torn down with the connection. -/
theorem act_recorded (r : Request) (op : Operation) :
    (r.act op).takesUp.toNat + ((r.act op).after == .asyncWake).toNat +
        ((r.act op).buries (· == .asyncWake)).toNat =
      (r.act op).defers.toNat + (r == .asyncWake).toNat := by
  cases r <;> cases op <;> rfl

/-- A connection is torn down once: by an operation that asks for it and finds it not
torn down yet. -/
theorem act_buries (r : Request) :
    (r.act op).buries (fun _ => true) = (op == .destroy && r != .destroy) := by
  cases r <;> cases op <;> rfl

theorem act_after_eq_destroy : (r.act op).after = .destroy ↔ op = .destroy ∨ r = .destroy := by
  cases r <;> cases op <;> decide

/-- An operation that is refused, or finds nothing to do, leaves the state as it is. -/
theorem act_vain (h : (r.act op).isVain = true) : (r.act op).after = r := by
  cases r <;> cases op <;> first | rfl | cases h

/-- A wake of connections at rest finds nothing to do at any other. -/
theorem act_wakeKeepalive (h : r ≠ .keepalive) :
    (r.act .wakeKeepalive).answer = .waking .ignored ∧ (r.act .wakeKeepalive).after = r := by
  cases r with
  | keepalive => exact absurd rfl h
  | _ => exact ⟨rfl, rfl⟩

/-! ## Whole histories -/

/-- What holds of a connection after each move, where the moves give and take it, is
in balance over a whole history. -/
theorem countP_balance (held : Request → Bool) {gives takes buries : Move → Bool}
    (h : ∀ (r : Request) (op : Operation),
      (takes (r.act op)).toNat + (held (r.act op).after).toNat + (buries (r.act op)).toNat =
        (gives (r.act op)).toNat + (held r).toNat) (r : Request) :
    (r.history ops).countP takes + (held (r.reached ops)).toNat + (r.history ops).countP buries =
      (r.history ops).countP gives + (held r).toNat := by
  induction ops generalizing r with
  | nil => simp only [history, reached, List.countP_nil]; omega
  | cons op ops ih =>
    have hop := h r op
    have hrest := ih (r.act op).after
    simp only [history_cons, reached, countP_cons_toNat]
    omega

theorem reached_destroy : reached .destroy ops = .destroy := by
  induction ops with
  | nil => rfl
  | cons op ops ih => rw [reached, (act_after_eq_destroy op).2 (.inr rfl), ih]

/-- A connection is torn down once if any operation asks for it and it was not
before, and never otherwise. -/
theorem countP_buries (r : Request) :
    (r.history ops).countP (Move.buries fun _ => true) =
      if .destroy ∈ ops ∧ r ≠ .destroy then 1 else 0 := by
  induction ops generalizing r with
  | nil => rfl
  | cons op ops ih =>
    rw [history_cons, countP_cons_toNat, ih, act_buries]
    by_cases hr : r = .destroy
    · simp [hr, act_after_eq_destroy]
    · by_cases hop : op = .destroy
      · simp [hr, hop, act_after_eq_destroy]
      · simp [hr, hop, Ne.symm hop, act_after_eq_destroy]

/-- What the history of a new connection tells. -/
structure Balanced (ops : List Operation) : Prop where
  /-- Each time it was parked, one waker took it over, unless it is still parked or was
  torn down while it was. -/
  parks : (init.history ops).countP Move.takesOver + (init.reached ops).isParked.toNat +
      (init.history ops).countP (Move.buries isParked) =
    (init.history ops).countP Move.parks
  /-- Each wake that was recorded was taken up, unless it still is recorded or was when
  the connection was torn down. -/
  wakes : (init.history ops).countP Move.takesUp + (init.reached ops == .asyncWake).toNat +
      (init.history ops).countP (Move.buries (· == .asyncWake)) =
    (init.history ops).countP Move.defers
  vain : ∀ m ∈ init.history ops, m.isVain = true → m.after = m.before
  /-- It was torn down once, if that was asked for. -/
  buries : (init.history ops).countP (Move.buries fun _ => true) =
    if .destroy ∈ ops then 1 else 0
  destroyed : init.reached ops = .destroy → ∀ more, init.reached (ops ++ more) = .destroy
  /-- A wake of connections at rest does nothing to an asynchronous request. -/
  keepalive : ∀ m ∈ init.history ops, m.operation = .wakeKeepalive → m.before ≠ .keepalive →
    m.answer = .waking .ignored ∧ m.after = m.before
  /-- A wake of asynchronous requests does nothing to a connection at rest. -/
  async : ∀ m ∈ init.history ops, m.operation = .wakeAsync → m.before = .keepalive →
    m.answer = .waking .ignored ∧ m.after = m.before

/-- **No wake is lost and no park has two owners**, whatever operations came in
whatever order. -/
theorem balanced (ops : List Operation) : Balanced ops where
  parks := countP_balance ops isParked act_parked init
  wakes := countP_balance ops (· == .asyncWake) act_recorded init
  vain m hm h := by
    obtain ⟨r, op, rfl⟩ := exists_act_of_mem ops hm
    exact act_vain op h
  buries := by
    rw [countP_buries]
    simp
  destroyed h more := by rw [reached_append, h, reached_destroy]
  keepalive m hm hop hr := by
    obtain ⟨r, op, rfl⟩ := exists_act_of_mem ops hm
    cases hop
    exact act_wakeKeepalive hr
  async m hm hop hr := by
    obtain ⟨r, op, rfl⟩ := exists_act_of_mem ops hm
    cases hop
    cases hr
    exact ⟨rfl, rfl⟩

end LinkEngine.Connection.Request
