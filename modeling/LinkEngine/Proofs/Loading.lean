import LinkEngine.Proofs.Writing
import LinkEngine.Settings.Environment

/-!
# Loading settings

A document gives any of the settings, and the environment five of them, in variables that
hold decimal numbers (`Environment.Sets`). Both replace defaults and are checked after
that, so a document and an environment that give the same are loaded alike
(`loading_overrides_defaults`). Of the way in which documents are read nothing is used but that
it takes them for what is written in them (`Json.Takes`).
-/

namespace LinkEngine

namespace Text

/-- What is listed from a place on. -/
theorem toList_loop (bs : ByteArray) (i : Nat) (listed : List UInt8) :
    ByteArray.toList.loop bs i listed = listed.reverse ++ bs.data.toList.drop i := by
  fun_induction ByteArray.toList.loop bs i listed with
  | case1 i listed h ih =>
    have hi : i < bs.data.toList.length := h
    have hget : bs.get! i = bs.data.toList[i] := getElem!_pos bs.data i h
    rw [ih, List.drop_eq_getElem_cons hi, hget, List.reverse_cons, List.append_assoc,
      List.singleton_append]
  | case2 i listed h =>
    have hi : bs.data.toList.length ≤ i := Nat.le_of_not_lt h
    rw [List.drop_eq_nil_of_le hi, List.append_nil]

/-- Reading a text takes back what was written. -/
theorem decode?_encode (s : String) : decode? (encode s) = some s := by
  have hbytes : ByteArray.mk (encode s).toArray = s.toByteArray := by
    rw [encode, ByteArray.toList, toList_loop]
    rfl
  rw [decode?, hbytes, String.fromUTF8?, dif_pos s.isValidUTF8]
  rfl

theorem isBlank_of_isDigit {c : Char} (h : c.isDigit = true) : isBlank c = false := by
  have hb : '0'.toNat ≤ c.toNat ∧ c.toNat ≤ '9'.toNat := by
    simpa [Char.isDigit, UInt32.le_iff_toNat_le] using h
  have hlow : 48 ≤ c.toNat := hb.1
  have hhigh : c.toNat ≤ 57 := hb.2
  simp only [isBlank, Bool.or_eq_false_iff, Bool.and_eq_false_iff, decide_eq_false_iff_not,
    beq_eq_false_iff_ne]
  omega

/-- A row of digits is read as the number it stands for, if a word holds that. -/
theorem readUnsigned_of_isDigit {cs : List Char} (hne : cs ≠ [])
    (h : ∀ c ∈ cs, c.isDigit = true) (hle : Nat.ofDigitChars 10 cs 0 ≤ maxWord) :
    readUnsigned (trim cs) = some (Nat.ofDigitChars 10 cs 0) := by
  have htrim : trim cs = cs := trim_eq_self fun c hc => isBlank_of_isDigit (h c hc)
  have hplus : withoutPlus cs = cs := by
    unfold withoutPlus
    split
    · exact absurd (h '+' List.mem_cons_self) (by decide)
    · rfl
  rw [htrim, readUnsigned, hplus, Settings.readNumber_of_isDigit hne h]
  exact if_pos hle

end Text

namespace Settings

open Json (Value)

/-! ## Variables -/

/-- The values of the five variables; each may be unset. -/
structure Variables where
  keepaliveTimeout : Option UInt64 := none
  suspendTimeout : Option UInt64 := none
  maxConnections : Option UInt64 := none
  dispatchLimit : Option UInt64 := none
  workerThreads : Option UInt64 := none

/-- A number in decimal digits, perhaps with zeros before it. -/
def IsDecimal (n : UInt64) (cs : List Char) : Prop :=
  cs ≠ [] ∧ (∀ c ∈ cs, c.isDigit = true) ∧ Nat.ofDigitChars 10 cs 0 = n.toNat

/-- A variable holds a number, or is not set. -/
def Environment.Holds (env : Environment) (name : String) : Option UInt64 → Prop
  | none => env.lookup name = none
  | some n => ∃ text : String, env.lookup name = some (Text.encode text) ∧ IsDecimal n text.toList

/-- The environment sets the variables to these values; it may set others. -/
structure Environment.Sets (env : Environment) (x : Variables) : Prop where
  keepaliveTimeout : env.Holds "STRAND_KEEPALIVE_TIMEOUT_MS" x.keepaliveTimeout
  suspendTimeout : env.Holds "STRAND_SUSPEND_TIMEOUT_MS" x.suspendTimeout
  maxConnections : env.Holds "STRAND_MAX_CONNECTIONS" x.maxConnections
  dispatchLimit : env.Holds "STRAND_TIMER_DISPATCH_LIMIT" x.dispatchLimit
  workerThreads : env.Holds "STRAND_WORKER_THREADS" x.workerThreads

/-- The choice gives the settings that belong to the variables, and no others. -/
structure Choice.Mirrors (c : Choice) (x : Variables) : Prop where
  listener : c.listener.getD {} =
    { keepaliveTimeout := x.keepaliveTimeout
      suspendTimeout := x.suspendTimeout
      maxConnections := x.maxConnections }
  scheduler : c.scheduler.getD {} = { dispatchLimit := x.dispatchLimit }
  worker : c.worker.getD {} = { maxThreads := x.workerThreads }
  multiplexer : c.multiplexer.getD {} = {}

variable {env : Environment} {x : Variables} {c : Choice}

theorem natural?_of_holds {name : String} {o : Option UInt64} (h : env.Holds name o) :
    env.natural? name = .ok (o.map UInt64.toNat) := by
  cases o with
  | none =>
    have hunset : env.text? name = none := by
      rw [Environment.text?, show env.lookup name = none from h]
      rfl
    rw [Environment.natural?, hunset]
    rfl
  | some n =>
    obtain ⟨text, hlookup, hne, hdigits, hvalue⟩ := h
    have htext : env.text? name = some text := by
      rw [Environment.text?, hlookup, Option.bind_some, Text.decode?_encode]
    have hle : Nat.ofDigitChars 10 text.toList 0 ≤ Text.maxWord :=
      hvalue ▸ Nat.le_of_lt_succ n.toNat_lt
    have hread := Text.readUnsigned_of_isDigit hne hdigits hle
    simp only [Environment.natural?, htext, hread, hvalue, Option.map_some]

/-- The setting of a variable that is set is replaced, and the others are looked at. -/
theorem override_cons {v : Variable} {o : Option UInt64} (h : env.Holds v.name o)
    (vs : List Variable) (e : Engine) :
    override env (v :: vs) e = override env vs (o.elim e fun n => v.set n.toNat e) := by
  rw [override, natural?_of_holds h]
  cases o <;> rfl

/-- A section that is not written is as one that gives nothing. -/
theorem Choice.settings_eq (c : Choice) :
    c.settings =
      { listener := (c.listener.getD {}).onto {}
        scheduler := (c.scheduler.getD {}).onto {}
        worker := (c.worker.getD {}).onto {}
        multiplexer := (c.multiplexer.getD {}).onto {} } := by
  obtain ⟨l, s, w, m⟩ := c
  unfold settings
  congr
  · cases l <;> rfl
  · cases s <;> rfl
  · cases w <;> rfl
  · cases m <;> rfl

/-- The variables replace the settings that the choice gives. -/
theorem override_eq_settings (henv : env.Sets x) (hc : c.Mirrors x) :
    override env Variable.all {} = .ok c.settings := by
  rw [c.settings_eq, hc.listener, hc.scheduler, hc.worker, hc.multiplexer, Variable.all,
    override_cons henv.keepaliveTimeout, override_cons henv.suspendTimeout,
    override_cons henv.maxConnections, override_cons henv.dispatchLimit,
    override_cons henv.workerThreads, override]
  obtain ⟨keepalive, suspend, connections, limit, threads⟩ := x
  cases keepalive <;> cases suspend <;> cases connections <;> cases limit <;> cases threads <;> rfl

/-- **Loading settings overrides the defaults.** There is a document for every choice of
settings. One that writes it, in any order, with any white space and any members of other names,
is taken for what is written by the reader given here; and wherever it is, it is loaded as the
default settings with exactly those replaced, if these pass the check, and is refused with the
fault of the check otherwise. An environment in which the variables hold what the document gives
comes to the same. -/
theorem loading_overrides_defaults (c : Choice) :
    (∃ cs, c.IsWritten cs) ∧ ∀ cs, c.IsWritten cs → Json.Takes Json.read? cs ∧
      ∀ read, Json.Takes read cs →
        (Engine.ofDocumentWith read cs =
          match c.settings.validate with
          | .ok () => .ok c.settings
          | .error fault => .error fault) ∧
        ∀ (x : Variables) (env : Environment), env.Sets x → c.Mirrors x →
          Engine.ofEnvironment env = Engine.ofDocumentWith read cs := by
  refine ⟨c.exists_isWritten, fun cs h => ⟨Json.takes_read? cs, fun read hread => ?_⟩⟩
  have hdocument := ofDocumentWith_of_isWritten hread h
  refine ⟨hdocument, fun x env henv hc => ?_⟩
  rw [Engine.ofEnvironment, override_eq_settings henv hc, hdocument]

/-- A document with a member of no meaning, and one setting in the section of the
listener. -/
def sample : List Char :=
  "\x7b \"other\" : [ ],\n \"listener\":\x7b\"max_connections\": 7\x7d \x7d".toList

/-- What it writes. -/
theorem isWritten_sample :
    Choice.IsWritten { listener := some { maxConnections := some 7 } } sample := by
  have hnone : Json.Blank [] := Json.blank_nil
  have hspace : Json.Blank [' '] := by simp [Json.Blank]
  have hbreak : Json.Blank ['\n', ' '] := by simp [Json.Blank]
  have hseven : (plain 7).Spelt ['7'] := spelt_plain 7
  have hsection := Value.Spelt.object (.one (.mk hnone
    (Json.spelt_chars "max_connections".toList (by simp)) hnone hspace (.number hseven) hnone))
  have hother := Json.MemberSpelt.mk hspace (Json.spelt_chars "other".toList (by simp)) hspace
    hspace (Value.Spelt.noItems hspace) hnone
  have hlistener := Json.MemberSpelt.mk hbreak (Json.spelt_chars "listener".toList (by simp))
    hnone hnone hsection hspace
  have hunknown : "other" ∉ ["listener", "scheduler", "worker", "multiplexer"] := by decide
  refine ⟨_, ⟨[], _, [], hnone, .object (.more hother (.one hlistener)), hnone, rfl⟩, ?_⟩
  refine ⟨_, rfl, _, .refl _, .other (Json.text?_chars _) hunknown <|
    .setting (Json.text?_chars _) ⟨_, rfl, _, .refl _, ?_⟩ .nil⟩
  exact .setting (Json.text?_chars _) rfl .nil

/-- The document and an environment that holds the same come to the same settings. -/
theorem loading_overrides_defaults_sample :
    Engine.ofDocument sample = .ok { listener := { maxConnections := 7 } } ∧
      Engine.ofEnvironment [("STRAND_MAX_CONNECTIONS", Text.encode "007")] =
        Engine.ofDocument sample := by
  obtain ⟨htaken, hloaded⟩ := (loading_overrides_defaults _).2 sample isWritten_sample
  obtain ⟨hdocument, henvironment⟩ := hloaded Json.read? htaken
  refine ⟨hdocument.trans rfl, henvironment { maxConnections := some 7 } _ ?_ ?_⟩
  · exact ⟨rfl, rfl, ⟨"007", rfl, by simp, by simp, rfl⟩, rfl, rfl⟩
  · exact ⟨rfl, rfl, rfl, rfl⟩

end Settings

end LinkEngine
