import LinkEngine.Proofs.Grammar
import LinkEngine.Settings.Document
import Mathlib.Data.List.Forall2
import Mathlib.Data.List.Nodup
import Mathlib.Data.List.Pairwise
import Mathlib.Data.List.Perm.Basic

/-!
# Choices of settings, and the documents that write them

A choice says of each setting whether it is given and what it is given as; what it comes
to is the default settings with those replaced (`Choice.settings`). A document writes a
choice if its objects have a member for each setting that is given, in any order and among
any members of other names (`Writes`). Reading puts the members into a section one by one;
since no two fields touch the same part of it (`Apart`) their order does not matter, and
the section comes out as chosen (`readObject_of_writes`).
-/

namespace LinkEngine.Settings

open Json (Value Literal)
open Time (Duration)

/-! ## What is written for a setting -/

/-- A number in decimal digits, without a sign, a fraction or an exponent. -/
def plain (n : Nat) : Json.Number where
  negative := false
  digits := Text.decimal n
  hasFraction := false
  hasExponent := false

/-- A number. -/
def IsNumber (n : UInt64) (v : Value) : Prop := v = .number (plain n.toNat)

/-- A text, with any of its characters escaped. -/
def IsText (s : String) (v : Value) : Prop := ∃ t : Literal, v = .text t ∧ t.text? = some s.toList

/-- A truth value. -/
def IsFlag (b : Bool) (v : Value) : Prop := v = .bool b

/-- Nothing, or a number. -/
def IsOptional : Option UInt64 → Value → Prop
  | none, v => v = .null
  | some n, v => IsNumber n v

/-- A setting by its name, with what is written for it if it is given. -/
structure Row where
  name : String
  written : Option (Value → Prop)

/-- The row of a setting that may be given. -/
def row {α : Type} (name : String) (given : Option α) (is : α → Value → Prop) : Row :=
  { name, written := given.map is }

/-- The settings that are given. -/
def given (table : List Row) : List (String × (Value → Prop)) :=
  table.filterMap fun r => r.written.map (r.name, ·)

/-- The members of an object write settings in this order, among members of names that are
not known. -/
inductive InOrder (known : List String) :
    List (String × (Value → Prop)) → List (Literal × Value) → Prop where
  | nil : InOrder known [] []
  | setting {key : Literal} {v : Value} {name : String} {is : Value → Prop}
      {entries : List (String × (Value → Prop))} {members : List (Literal × Value)}
      (hk : key.text? = some name.toList) (hv : is v) (rest : InOrder known entries members) :
      InOrder known ((name, is) :: entries) ((key, v) :: members)
  | other {key : Literal} {v : Value} {name : String}
      {entries : List (String × (Value → Prop))} {members : List (Literal × Value)}
      (hk : key.text? = some name.toList) (hn : name ∉ known)
      (rest : InOrder known entries members) : InOrder known entries ((key, v) :: members)

/-- The members of an object write the settings of a table that are given, each of them
once, in any order. -/
def Writes (table : List Row) (members : List (Literal × Value)) : Prop :=
  ∃ entries, entries.Perm (given table) ∧ InOrder (table.map (·.name)) entries members

/-- An object with such members. -/
def IsSection (table : List Row) (v : Value) : Prop :=
  ∃ members, v = .object members ∧ Writes table members

/-! ## Choices -/

/-- A span of time in milliseconds. -/
def millis (n : UInt64) : Duration := .ofMillis n.toNat

/-- Which settings of a listener are given, and as what. -/
structure Listener.Choice where
  keepaliveTimeout : Option UInt64 := none
  suspendTimeout : Option UInt64 := none
  duplexIdleTimeout : Option UInt64 := none
  readTimeout : Option UInt64 := none
  pollSlice : Option UInt64 := none
  maxConnections : Option UInt64 := none
  acceptInterval : Option UInt64 := none
  housekeepingInterval : Option UInt64 := none
  maxIdleBuffers : Option UInt64 := none
  readBufferSize : Option UInt64 := none
  writeBufferSize : Option UInt64 := none

/-- Replaces the settings that are given. -/
def Listener.Choice.onto (c : Listener.Choice) (s : Listener) : Listener where
  keepaliveTimeout := c.keepaliveTimeout.elim s.keepaliveTimeout millis
  suspendTimeout := c.suspendTimeout.elim s.suspendTimeout millis
  duplexIdleTimeout := c.duplexIdleTimeout.elim s.duplexIdleTimeout millis
  readTimeout := c.readTimeout.elim s.readTimeout millis
  pollSlice := c.pollSlice.elim s.pollSlice millis
  maxConnections := c.maxConnections.elim s.maxConnections UInt64.toNat
  acceptInterval := c.acceptInterval.elim s.acceptInterval millis
  housekeepingInterval := c.housekeepingInterval.elim s.housekeepingInterval millis
  maxIdleBuffers := c.maxIdleBuffers.elim s.maxIdleBuffers UInt64.toNat
  readBufferSize := c.readBufferSize.elim s.readBufferSize UInt64.toNat
  writeBufferSize := c.writeBufferSize.elim s.writeBufferSize UInt64.toNat

/-- The settings of a listener by the names they are written under. -/
def Listener.Choice.table (c : Listener.Choice) : List Row :=
  [row "keepalive_timeout" c.keepaliveTimeout IsNumber,
    row "suspend_timeout" c.suspendTimeout IsNumber,
    row "duplex_idle_timeout" c.duplexIdleTimeout IsNumber,
    row "read_timeout" c.readTimeout IsNumber,
    row "poll_slice" c.pollSlice IsNumber,
    row "max_connections" c.maxConnections IsNumber,
    row "accept_interval" c.acceptInterval IsNumber,
    row "housekeeping_interval" c.housekeepingInterval IsNumber,
    row "max_idle_buffers" c.maxIdleBuffers IsNumber,
    row "read_buffer_size" c.readBufferSize IsNumber,
    row "write_buffer_size" c.writeBufferSize IsNumber]

/-- Which settings of the scheduler are given, and as what. -/
structure Scheduler.Choice where
  approxThreshold : Option UInt64 := none
  fallbackWindow : Option UInt64 := none
  minSampleInterval : Option UInt64 := none
  maxSampleInterval : Option UInt64 := none
  dispatchLimit : Option UInt64 := none
  threadName : Option String := none

@[inherit_doc Listener.Choice.onto]
def Scheduler.Choice.onto (c : Scheduler.Choice) (s : Scheduler) : Scheduler where
  approxThreshold := c.approxThreshold.elim s.approxThreshold millis
  fallbackWindow := c.fallbackWindow.elim s.fallbackWindow millis
  minSampleInterval := c.minSampleInterval.elim s.minSampleInterval millis
  maxSampleInterval := c.maxSampleInterval.elim s.maxSampleInterval millis
  dispatchLimit := c.dispatchLimit.elim s.dispatchLimit UInt64.toNat
  threadName := c.threadName.elim s.threadName id

/-- The settings of the scheduler by the names they are written under. -/
def Scheduler.Choice.table (c : Scheduler.Choice) : List Row :=
  [row "approx_threshold" c.approxThreshold IsNumber,
    row "fallback_window" c.fallbackWindow IsNumber,
    row "min_sample_interval" c.minSampleInterval IsNumber,
    row "max_sample_interval" c.maxSampleInterval IsNumber,
    row "dispatch_limit" c.dispatchLimit IsNumber,
    row "thread_name" c.threadName IsText]

/-- Which settings of the worker pool are given, and as what. -/
structure Worker.Choice where
  maxThreads : Option UInt64 := none
  priorityThreads : Option UInt64 := none
  namePrefix : Option String := none
  /-- A size may be given as nothing. -/
  stackSize : Option (Option UInt64) := none
  keepAlive : Option UInt64 := none

@[inherit_doc Listener.Choice.onto]
def Worker.Choice.onto (c : Worker.Choice) (s : Worker) : Worker where
  maxThreads := c.maxThreads.elim s.maxThreads UInt64.toNat
  priorityThreads := c.priorityThreads.elim s.priorityThreads UInt64.toNat
  namePrefix := c.namePrefix.elim s.namePrefix id
  stackSize := c.stackSize.elim s.stackSize (·.map UInt64.toNat)
  keepAlive := c.keepAlive.elim s.keepAlive millis

/-- The settings of the worker pool by the names they are written under. -/
def Worker.Choice.table (c : Worker.Choice) : List Row :=
  [row "max_threads" c.maxThreads IsNumber,
    row "priority_threads" c.priorityThreads IsNumber,
    row "name_prefix" c.namePrefix IsText,
    row "stack_size" c.stackSize IsOptional,
    row "keep_alive" c.keepAlive IsNumber]

/-- Which settings of the multiplexer are given, and as what. -/
structure Multiplexer.Choice where
  enabled : Option Bool := none
  pollInterval : Option UInt64 := none
  maxWatched : Option UInt64 := none
  threadName : Option String := none

@[inherit_doc Listener.Choice.onto]
def Multiplexer.Choice.onto (c : Multiplexer.Choice) (s : Multiplexer) : Multiplexer where
  enabled := c.enabled.elim s.enabled id
  pollInterval := c.pollInterval.elim s.pollInterval millis
  maxWatched := c.maxWatched.elim s.maxWatched UInt64.toNat
  threadName := c.threadName.elim s.threadName id

/-- The settings of the multiplexer by the names they are written under. -/
def Multiplexer.Choice.table (c : Multiplexer.Choice) : List Row :=
  [row "enabled" c.enabled IsFlag,
    row "poll_interval" c.pollInterval IsNumber,
    row "max_watched" c.maxWatched IsNumber,
    row "thread_name" c.threadName IsText]

/-- Which sections are written, and which of their settings are given. A section may be
written and give none. -/
structure Choice where
  listener : Option Listener.Choice := none
  scheduler : Option Scheduler.Choice := none
  worker : Option Worker.Choice := none
  multiplexer : Option Multiplexer.Choice := none

namespace Choice

/-- The default settings, with those replaced that are given. -/
def settings (c : Choice) : Engine where
  listener := c.listener.elim {} (·.onto {})
  scheduler := c.scheduler.elim {} (·.onto {})
  worker := c.worker.elim {} (·.onto {})
  multiplexer := c.multiplexer.elim {} (·.onto {})

/-- The sections by the names they are written under. -/
def table (c : Choice) : List Row :=
  [row "listener" c.listener (IsSection ·.table),
    row "scheduler" c.scheduler (IsSection ·.table),
    row "worker" c.worker (IsSection ·.table),
    row "multiplexer" c.multiplexer (IsSection ·.table)]

/-- The characters are a document that writes this choice. -/
def IsWritten (c : Choice) (cs : List Char) : Prop :=
  ∃ v : Value, v.Fills cs ∧ IsSection c.table v

end Choice

/-! ## Fields that read -/

variable {σ τ α β : Type}

/-- A field reads the value that is written, and sets what it read. -/
def Field.reading (name : String) (read : Value → Option α) (set : α → σ → σ) : Field σ :=
  { name, put := fun v s => (read v).map (set · s) }

/-- The truth value a value stands for. -/
def flag? : Value → Option Bool
  | .bool b => some b
  | _ => none

/-- The number or nothing that a value stands for. -/
def optional? : Value → Option (Option Nat)
  | .null => some none
  | v => (natural? v).map some

theorem Field.natural_eq (name : String) (set : Nat → σ → σ) :
    Field.natural name set = .reading name natural? set := rfl

theorem Field.span_eq (name : String) (set : Duration → σ → σ) :
    Field.span name set = .reading name (fun v => (natural? v).map Duration.ofMillis) set := by
  unfold Field.span Field.natural Field.reading
  simp only [Option.map_map]
  rfl

theorem Field.text_eq (name : String) (set : String → σ → σ) :
    Field.text name set = .reading name text? set := rfl

theorem Field.flag_eq (name : String) (set : Bool → σ → σ) :
    Field.flag name set = .reading name flag? set := by
  unfold Field.flag Field.reading
  congr 1
  funext v s
  cases v <;> rfl

theorem Field.optional_eq (name : String) (set : Option Nat → σ → σ) :
    Field.optional name set = .reading name optional? set := by
  unfold Field.optional Field.reading
  congr 1
  funext v s
  cases v with
  | number n =>
    show (n.natural?).map _ = ((n.natural?).map some).map _
    rw [Option.map_map]
    rfl
  | _ => rfl

theorem Field.nested_eq (name : String) (fields : List (Field τ)) (defaults : τ)
    (set : τ → σ → σ) :
    Field.nested name fields defaults set = .reading name (readSection fields defaults) set := rfl

/-- Two fields can be put into a section in either order. -/
def Apart (f g : Field σ) : Prop :=
  ∀ v w s, (f.put v s).bind (g.put w) = (g.put w s).bind (f.put v)

theorem Apart.symm {f g : Field σ} (h : Apart f g) : Apart g f := fun v w s => (h w v s).symm

instance : Std.Symm (Apart (σ := σ)) := ⟨fun _ _ => Apart.symm⟩

/-- Fields that set different parts are apart. -/
theorem apart_reading {n m : String} {r : Value → Option α} {r' : Value → Option β}
    {set : α → σ → σ} {set' : β → σ → σ} (h : ∀ a b s, set' b (set a s) = set a (set' b s)) :
    Apart (.reading n r set) (.reading m r' set') := by
  intro v w s
  show ((r v).map (set · s)).bind (fun s => (r' w).map (set' · s)) =
    ((r' w).map (set' · s)).bind (fun s => (r v).map (set · s))
  cases r v with
  | none => cases r' w <;> rfl
  | some a =>
    cases r' w with
    | none => rfl
    | some b => exact congrArg some (h a b s)

/-- No two settings of a listener are kept in the same place. -/
theorem Listener.fields_apart : Listener.fields.Pairwise Apart := by
  simp [Listener.fields, Field.span_eq, Field.natural_eq, apart_reading]

theorem Scheduler.fields_apart : Scheduler.fields.Pairwise Apart := by
  simp [Scheduler.fields, Field.span_eq, Field.natural_eq, Field.text_eq, apart_reading]

theorem Worker.fields_apart : Worker.fields.Pairwise Apart := by
  simp [Worker.fields, Field.span_eq, Field.natural_eq, Field.text_eq, Field.optional_eq,
    apart_reading]

theorem Multiplexer.fields_apart : Multiplexer.fields.Pairwise Apart := by
  simp [Multiplexer.fields, Field.span_eq, Field.natural_eq, Field.text_eq, Field.flag_eq,
    apart_reading]

theorem Engine.fields_apart : Engine.fields.Pairwise Apart := by
  simp [Engine.fields, Field.nested_eq, apart_reading]

/-! ## Reading what was written -/

/-- A row of digits is read as the number it stands for. -/
theorem readNumber_of_isDigit {cs : List Char} (hne : cs ≠ []) (h : ∀ c ∈ cs, c.isDigit = true) :
    Text.readNumber cs = some (Nat.ofDigitChars 10 cs 0) := by
  cases cs with
  | nil => exact absurd rfl hne
  | cons c cs => exact Text.readDigits_of_isDigit h 0

theorem isDigit_of_mem_decimal (n : Nat) : ∀ c ∈ Text.decimal n, c.isDigit = true := fun _ hc =>
  Nat.isDigit_of_mem_toDigits (by decide) (by decide) hc

theorem natural?_of_isNumber {n : UInt64} {v : Value} (h : IsNumber n v) :
    natural? v = some n.toNat := by
  have hread : Text.readNumber (Text.decimal n.toNat) = some n.toNat := by
    have hne : Text.decimal n.toNat ≠ [] := Nat.toDigits_ne_nil
    rw [readNumber_of_isDigit hne (isDigit_of_mem_decimal n.toNat), Text.decimal,
      Nat.ofDigitChars_ten_toDigits]
  have hle : n.toNat ≤ Text.maxWord := Nat.le_of_lt_succ n.toNat_lt
  have hvalue : (plain n.toNat).natural? = some n.toNat := by
    simp only [Json.Number.natural?, plain, hread, hle, Bool.or_self, Bool.false_eq_true, if_false,
      if_true]
  rw [h]
  exact hvalue

theorem millis_of_isNumber {n : UInt64} {v : Value} (h : IsNumber n v) :
    (natural? v).map Duration.ofMillis = some (millis n) := by
  rw [natural?_of_isNumber h]
  rfl

theorem text?_of_isText {s : String} {v : Value} (h : IsText s v) : text? v = some s := by
  obtain ⟨t, rfl, ht⟩ := h
  show t.text?.map String.ofList = some s
  rw [ht, Option.map_some, String.ofList_toList]

theorem flag?_of_isFlag {b : Bool} {v : Value} (h : IsFlag b v) : flag? v = some b := by
  rw [h]
  rfl

theorem optional?_of_isOptional {o : Option UInt64} {v : Value} (h : IsOptional o v) :
    optional? v = some (o.map UInt64.toNat) := by
  cases o with
  | none =>
    rw [show v = .null from h]
    rfl
  | some n =>
    have hread := natural?_of_isNumber h
    rw [show v = .number _ from h] at hread ⊢
    show (natural? _).map some = _
    rw [hread]
    rfl

/-- Field by field, a table names the settings of a section, and what is written for one
that is given makes the change that is meant; one that is not given makes none. -/
inductive Agrees : List (Field σ) → List Row → (σ → σ) → Prop where
  | nil : Agrees [] [] id
  | cons {f : Field σ} {fields : List (Field σ)} {r : Row} {table : List Row}
      {changes : σ → σ} (change : σ → σ) (hname : f.name = r.name)
      (hnone : r.written = none → ∀ s, change s = s)
      (hsome : ∀ is, r.written = some is → ∀ v, is v → ∀ s, f.put v s = some (change s))
      (rest : Agrees fields table changes) :
      Agrees (f :: fields) (r :: table) fun s => changes (change s)

namespace Agrees

variable {fields : List (Field σ)} {table : List Row} {changes : σ → σ} {name : String}

/-- A setting that is read as a value, and kept in one part of the section. -/
theorem reading {γ : Type} {read : Value → Option γ} {set : γ → σ → σ}
    (get : σ → γ) (hset : ∀ s, set (get s) s = s) (o : Option α) {is : α → Value → Prop}
    (conv : α → γ) (hread : ∀ a v, is a v → read v = some (conv a))
    (rest : Agrees fields table changes) :
    Agrees (.reading name read set :: fields) (row name o is :: table)
      fun s => changes (set (o.elim (get s) conv) s) := by
  refine .cons (fun s => set (o.elim (get s) conv) s) rfl ?_ ?_ rest
  · intro hnone s
    cases o with
    | none => exact hset s
    | some a => cases hnone
  · intro is' hsome v hv s
    cases o with
    | none => cases hsome
    | some a =>
      cases hsome
      show (read v).map (set · s) = some (set (conv a) s)
      rw [hread a v hv]
      rfl

theorem natural {set : Nat → σ → σ} (get : σ → Nat) (hset : ∀ s, set (get s) s = s)
    (o : Option UInt64) (rest : Agrees fields table changes) :
    Agrees (.natural name set :: fields) (row name o IsNumber :: table)
      fun s => changes (set (o.elim (get s) UInt64.toNat) s) :=
  .reading get hset o _ (fun _ _ => natural?_of_isNumber) rest

theorem span {set : Duration → σ → σ} (get : σ → Duration) (hset : ∀ s, set (get s) s = s)
    (o : Option UInt64) (rest : Agrees fields table changes) :
    Agrees (.span name set :: fields) (row name o IsNumber :: table)
      fun s => changes (set (o.elim (get s) millis) s) := by
  rw [Field.span_eq]
  exact .reading get hset o _ (fun _ _ => millis_of_isNumber) rest

theorem text {set : String → σ → σ} (get : σ → String) (hset : ∀ s, set (get s) s = s)
    (o : Option String) (rest : Agrees fields table changes) :
    Agrees (.text name set :: fields) (row name o IsText :: table)
      fun s => changes (set (o.elim (get s) id) s) :=
  .reading get hset o _ (fun _ _ => text?_of_isText) rest

theorem flag {set : Bool → σ → σ} (get : σ → Bool) (hset : ∀ s, set (get s) s = s)
    (o : Option Bool) (rest : Agrees fields table changes) :
    Agrees (.flag name set :: fields) (row name o IsFlag :: table)
      fun s => changes (set (o.elim (get s) id) s) := by
  rw [Field.flag_eq]
  exact .reading get hset o _ (fun _ _ => flag?_of_isFlag) rest

theorem optional {set : Option Nat → σ → σ} (get : σ → Option Nat)
    (hset : ∀ s, set (get s) s = s) (o : Option (Option UInt64))
    (rest : Agrees fields table changes) :
    Agrees (.optional name set :: fields) (row name o IsOptional :: table)
      fun s => changes (set (o.elim (get s) (·.map UInt64.toNat)) s) := by
  rw [Field.optional_eq]
  exact .reading get hset o _ (fun _ _ => optional?_of_isOptional) rest

end Agrees

/-! ## Members in any order -/

/-- Puts values into fields, one after the other. -/
def puts : List (Field σ × Value) → σ → Option σ
  | [], s => some s
  | p :: ps, s => (p.1.put p.2 s).bind (puts ps)

/-- Fields that are apart can be put in any order. -/
theorem puts_perm {ps qs : List (Field σ × Value)} (h : ps.Perm qs)
    (hapart : ps.Pairwise fun p q => Apart p.1 q.1) (s : σ) : puts ps s = puts qs s := by
  induction h generalizing s with
  | nil => rfl
  | cons p _ ih =>
    have htail := ih (List.pairwise_cons.1 hapart).2
    show (p.1.put p.2 s).bind (puts _) = (p.1.put p.2 s).bind (puts _)
    rw [funext htail]
  | swap p q l =>
    have hpair : Apart q.1 p.1 := (List.pairwise_cons.1 hapart).1 p List.mem_cons_self
    show (q.1.put q.2 s).bind (fun s => (p.1.put p.2 s).bind (puts l)) =
      (p.1.put p.2 s).bind (fun s => (q.1.put q.2 s).bind (puts l))
    rw [← Option.bind_assoc, ← Option.bind_assoc]
    exact congrArg (Option.bind · (puts l)) (hpair q.2 p.2 s)
  | trans h₁ _ ih₁ ih₂ =>
    have hapart₂ := (h₁.pairwise_iff Apart.symm).1 hapart
    exact (ih₁ hapart s).trans (ih₂ hapart₂ s)

/-- A field of these has this name, and the value is what is written for it. -/
structure Fits (fields : List (Field σ)) (e : String × (Value → Prop)) (p : Field σ × Value) :
    Prop where
  mem : p.1 ∈ fields
  name : p.1.name = e.1
  value : e.2 p.2

/-- Fields of different names are different fields, and so they are apart. -/
theorem pairwise_of_fits {fields : List (Field σ)} (hapart : fields.Pairwise Apart)
    {entries : List (String × (Value → Prop))} {ps : List (Field σ × Value)}
    (h : List.Forall₂ (Fits fields) entries ps) (honce : (entries.map (·.1)).Nodup) :
    ps.Pairwise fun p q => Apart p.1 q.1 := by
  induction h with
  | nil => exact .nil
  | @cons e p entries ps hp hps ih =>
    obtain ⟨hfirst, hrest⟩ := List.nodup_cons.1 honce
    refine List.pairwise_cons.2 ⟨fun q hq => ?_, ih hrest⟩
    obtain ⟨i, hi, rfl⟩ := List.getElem_of_mem hq
    have hi' : i < entries.length := hps.length_eq ▸ hi
    have hfit := hps.get hi' hi
    have hname : p.1 = ps[i].1 → (entries.get ⟨i, hi'⟩).1 = e.1 := fun heq => by
      rw [← hp.name, heq, ← hfit.name]
      rfl
    exact hapart.forall hp.mem hfit.mem fun heq =>
      hfirst (List.mem_map.2 ⟨_, List.get_mem .., hname heq⟩)

/-- A field is found by its name. -/
theorem find_field {fields : List (Field σ)} (hnames : (fields.map (·.name)).Nodup)
    {f : Field σ} (hf : f ∈ fields) :
    fields.find? (fun g => g.name.toList == f.name.toList) = some f := by
  induction fields with
  | nil => cases hf
  | cons g gs ih =>
    obtain ⟨hg, hgs⟩ := List.nodup_cons.1 hnames
    rcases List.mem_cons.1 hf with rfl | hf
    · simp
    · have hne : g.name ≠ f.name := fun h =>
        hg (List.mem_map.2 ⟨f, hf, h.symm⟩)
      rw [List.find?_cons_of_neg (by simpa using fun h => hne (String.toList_inj.1 h))]
      exact ih hgs hf

/-- Members are read in the order in which they stand, those of other names passed over. -/
theorem readObject_of_inOrder {fields : List (Field σ)}
    (hnames : (fields.map (·.name)).Nodup) {entries : List (String × (Value → Prop))}
    {members : List (Literal × Value)} (h : InOrder (fields.map (·.name)) entries members)
    (hknown : ∀ e ∈ entries, e.1 ∈ fields.map (·.name)) (honce : (entries.map (·.1)).Nodup)
    {seen : List String} (hseen : ∀ e ∈ entries, e.1 ∉ seen) :
    ∃ ps, List.Forall₂ (Fits fields) entries ps ∧
      ∀ s, readObject fields seen s members = puts ps s := by
  induction h generalizing seen with
  | nil => exact ⟨[], .nil, fun _ => rfl⟩
  | @setting key v name is entries members hk hv _ ih =>
    obtain ⟨f, hf, rfl⟩ := List.mem_map.1 (hknown _ List.mem_cons_self)
    obtain ⟨hfirst, hrest⟩ := List.nodup_cons.1 honce
    have hlater : ∀ e ∈ entries, e.1 ∉ f.name :: seen := by
      intro e he hmem
      rcases List.mem_cons.1 hmem with heq | hmem
      · exact hfirst (List.mem_map.2 ⟨e, he, heq⟩)
      · exact hseen e (List.mem_cons_of_mem _ he) hmem
    obtain ⟨ps, hps, hread⟩ := ih (fun e he => hknown e (List.mem_cons_of_mem _ he)) hrest hlater
    refine ⟨(f, v) :: ps, .cons ⟨hf, rfl, hv⟩ hps, fun s => ?_⟩
    have hnew : seen.contains f.name = false := by
      simpa using hseen _ List.mem_cons_self
    simp only [readObject, hk, find_field hnames hf, hnew, Bool.false_eq_true, if_false, puts]
    cases f.put v s with
    | none => rfl
    | some s' => exact hread s'
  | @other key v name entries members hk hn _ ih =>
    obtain ⟨ps, hps, hread⟩ := ih hknown honce hseen
    refine ⟨ps, hps, fun s => ?_⟩
    have hnone : fields.find? (fun g => g.name.toList == name.toList) = none := by
      refine List.find?_eq_none.2 fun g hg heq => hn ?_
      rw [← String.toList_inj.1 (beq_iff_eq.1 heq)]
      exact List.mem_map_of_mem hg
    simp only [readObject, hk, hnone]
    exact hread s

/-- What is written for the settings that are given, in the order of the fields, makes the
changes that are meant. -/
theorem Agrees.puts {fields own : List (Field σ)} {table : List Row} {changes : σ → σ}
    (h : Agrees own table changes) (hnames : (fields.map (·.name)).Nodup)
    (hown : ∀ f ∈ own, f ∈ fields) {ps : List (Field σ × Value)}
    (hps : List.Forall₂ (Fits fields) (given table) ps) (s : σ) :
    Settings.puts ps s = some (changes s) := by
  induction h generalizing ps s with
  | nil =>
    cases hps
    rfl
  | @cons f own r table changes change hname hnone hsome _ ih =>
    have hlater : ∀ g ∈ own, g ∈ fields := fun g hg => hown g (List.mem_cons_of_mem f hg)
    cases hw : r.written with
    | none =>
      have hgiven : given (r :: table) = given table := by
        simp only [given, List.filterMap_cons, hw, Option.map_none]
      rw [hgiven] at hps
      show Settings.puts ps s = some (changes (change s))
      rw [hnone hw s]
      exact ih hlater hps s
    | some is =>
      have hgiven : given (r :: table) = (r.name, is) :: given table := by
        simp only [given, List.filterMap_cons, hw, Option.map_some]
      rw [hgiven] at hps
      cases hps with
      | @cons _ p _ ps hp hps =>
        have hfield : p.1 = f := List.inj_on_of_nodup_map hnames hp.mem
          (hown f List.mem_cons_self) (hp.name.trans hname.symm)
        show (p.1.put p.2 s).bind (Settings.puts ps) = some (changes (change s))
        rw [hfield, hsome is hw p.2 hp.value s]
        exact ih hlater hps (change s)

/-- The settings that are given have their names from the table. -/
theorem given_sublist (table : List Row) :
    ((given table).map (·.1)).Sublist (table.map (·.name)) := by
  induction table with
  | nil => exact .slnil
  | cons r table ih =>
    rw [given, List.filterMap_cons]
    cases r.written with
    | none => exact ih.cons r.name
    | some is => exact ih.cons_cons r.name

theorem Agrees.names {fields : List (Field σ)} {table : List Row} {changes : σ → σ}
    (h : Agrees fields table changes) : table.map (·.name) = fields.map (·.name) := by
  induction h with
  | nil => rfl
  | cons _ hname _ _ _ ih => rw [List.map_cons, List.map_cons, hname, ih]

/-- **A section comes out as it was chosen**, in whatever order its members stand and
whatever members of other names are among them. -/
theorem readObject_of_writes {fields : List (Field σ)} {table : List Row} {changes : σ → σ}
    (hagrees : Agrees fields table changes) (hnames : (fields.map (·.name)).Nodup)
    (hapart : fields.Pairwise Apart) {members : List (Literal × Value)}
    (h : Writes table members) (s : σ) :
    readObject fields [] s members = some (changes s) := by
  obtain ⟨entries, hperm, horder⟩ := h
  rw [hagrees.names] at horder
  have hknown : ∀ e ∈ entries, e.1 ∈ fields.map (·.name) := fun e he => by
    rw [← hagrees.names]
    exact (given_sublist table).subset (List.mem_map_of_mem (hperm.mem_iff.1 he))
  have honce : (entries.map (·.1)).Nodup := by
    refine (hperm.map _).nodup_iff.2 ((given_sublist table).nodup ?_)
    rw [hagrees.names]
    exact hnames
  obtain ⟨ps, hfits, hread⟩ : ∃ ps, List.Forall₂ (Fits fields) entries ps ∧
      ∀ s, readObject fields [] s members = puts ps s :=
    readObject_of_inOrder hnames horder hknown honce fun _ _ => List.not_mem_nil
  have hpairs := pairwise_of_fits hapart hfits honce
  obtain ⟨qs, hfits', hperm'⟩ := List.perm_comp_forall₂ hperm.symm hfits
  rw [hread s, puts_perm hperm'.symm hpairs s]
  exact hagrees.puts hnames (fun _ hf => hf) hfits' s

/-! ## The sections -/

/-- A section is read as it was chosen. -/
theorem readSection_of_isSection {fields : List (Field σ)} {table : List Row}
    {changes : σ → σ} (hagrees : Agrees fields table changes)
    (hnames : (fields.map (·.name)).Nodup) (hapart : fields.Pairwise Apart) {v : Value}
    (h : IsSection table v) (defaults : σ) :
    readSection fields defaults v = some (changes defaults) := by
  obtain ⟨members, rfl, hwrites⟩ := h
  exact readObject_of_writes hagrees hnames hapart hwrites defaults

theorem Listener.Choice.agrees (c : Listener.Choice) :
    Agrees Listener.fields c.table c.onto := by
  have h : Agrees Listener.fields c.table _ :=
    .span (·.keepaliveTimeout) (fun _ => rfl) _ <|
    .span (·.suspendTimeout) (fun _ => rfl) _ <|
    .span (·.duplexIdleTimeout) (fun _ => rfl) _ <|
    .span (·.readTimeout) (fun _ => rfl) _ <|
    .span (·.pollSlice) (fun _ => rfl) _ <|
    .natural (·.maxConnections) (fun _ => rfl) _ <|
    .span (·.acceptInterval) (fun _ => rfl) _ <|
    .span (·.housekeepingInterval) (fun _ => rfl) _ <|
    .natural (·.maxIdleBuffers) (fun _ => rfl) _ <|
    .natural (·.readBufferSize) (fun _ => rfl) _ <|
    .natural (·.writeBufferSize) (fun _ => rfl) _ .nil
  exact h

theorem Scheduler.Choice.agrees (c : Scheduler.Choice) :
    Agrees Scheduler.fields c.table c.onto := by
  have h : Agrees Scheduler.fields c.table _ :=
    .span (·.approxThreshold) (fun _ => rfl) _ <|
    .span (·.fallbackWindow) (fun _ => rfl) _ <|
    .span (·.minSampleInterval) (fun _ => rfl) _ <|
    .span (·.maxSampleInterval) (fun _ => rfl) _ <|
    .natural (·.dispatchLimit) (fun _ => rfl) _ <|
    .text (·.threadName) (fun _ => rfl) _ .nil
  exact h

theorem Worker.Choice.agrees (c : Worker.Choice) : Agrees Worker.fields c.table c.onto := by
  have h : Agrees Worker.fields c.table _ :=
    .natural (·.maxThreads) (fun _ => rfl) _ <|
    .natural (·.priorityThreads) (fun _ => rfl) _ <|
    .text (·.namePrefix) (fun _ => rfl) _ <|
    .optional (·.stackSize) (fun _ => rfl) _ <|
    .span (·.keepAlive) (fun _ => rfl) _ .nil
  exact h

theorem Multiplexer.Choice.agrees (c : Multiplexer.Choice) :
    Agrees Multiplexer.fields c.table c.onto := by
  have h : Agrees Multiplexer.fields c.table _ :=
    .flag (·.enabled) (fun _ => rfl) _ <|
    .span (·.pollInterval) (fun _ => rfl) _ <|
    .natural (·.maxWatched) (fun _ => rfl) _ <|
    .text (·.threadName) (fun _ => rfl) _ .nil
  exact h

/-- A setting that is a section of its own. -/
theorem Agrees.nested {γ : Type} {fields : List (Field σ)} {table : List Row}
    {changes : σ → σ} {name : String} {set : τ → σ → σ} (get : σ → τ)
    (hset : ∀ s, set (get s) s = s) (o : Option γ) {inner : List (Field τ)} {defaults : τ}
    {rows : γ → List Row} {onto : γ → τ → τ} (hagrees : ∀ c, Agrees inner (rows c) (onto c))
    (hnames : (inner.map (·.name)).Nodup) (hapart : inner.Pairwise Apart)
    (rest : Agrees fields table changes) :
    Agrees (.nested name inner defaults set :: fields)
      (row name o (fun c => IsSection (rows c)) :: table)
      fun s => changes (set (o.elim (get s) (onto · defaults)) s) :=
  .reading get hset o (onto · defaults)
    (fun c _ hv => readSection_of_isSection (hagrees c) hnames hapart hv defaults) rest

theorem Choice.agrees (c : Choice) :
    ∃ changes, Agrees Engine.fields c.table changes ∧ changes {} = c.settings := by
  have h : Agrees Engine.fields c.table _ :=
    .nested (·.listener) (fun _ => rfl) _ Listener.Choice.agrees (by decide)
      Listener.fields_apart <|
    .nested (·.scheduler) (fun _ => rfl) _ Scheduler.Choice.agrees (by decide)
      Scheduler.fields_apart <|
    .nested (·.worker) (fun _ => rfl) _ Worker.Choice.agrees (by decide)
      Worker.fields_apart <|
    .nested (·.multiplexer) (fun _ => rfl) _ Multiplexer.Choice.agrees (by decide)
      Multiplexer.fields_apart .nil
  exact ⟨_, h, rfl⟩

section Reading

variable {read : List Char → Option Value} {c : Choice} {cs : List Char}
  (hread : Json.Takes read cs)
include hread

/-- **A document is read as the choice it writes.** -/
theorem readSection_of_isWritten (h : c.IsWritten cs) :
    (read cs).bind (readSection Engine.fields {}) = some c.settings := by
  obtain ⟨v, hfills, hsection⟩ := h
  obtain ⟨changes, hagrees, hchanges⟩ := c.agrees
  rw [hread v hfills, Option.bind_some, ← hchanges]
  exact readSection_of_isSection hagrees (by decide) Engine.fields_apart hsection {}

/-- Loading a document comes to the check of what was chosen. -/
theorem ofDocumentWith_of_isWritten (h : c.IsWritten cs) :
    Engine.ofDocumentWith read cs = c.settings.checked := by
  rw [Engine.ofDocumentWith, readSection_of_isWritten hread h]

end Reading

end LinkEngine.Settings
