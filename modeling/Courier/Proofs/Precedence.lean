import Courier.Lists
import Courier.Proofs.Numerals
import Courier.Settings.Load
import Mathlib.Data.String.Basic

namespace Courier

open Settings

inductive Quantity where
  | maxUndelivered
  | expirySecs
  | recoverySecs
  | workers
  | queueCapacity
  | window
  deriving DecidableEq

namespace Quantity

def all : List Quantity :=
  [maxUndelivered, expirySecs, recoverySecs, workers, queueCapacity, window]

def name : Quantity → String
  | maxUndelivered => "max_read_but_undelivered_messages"
  | expirySecs => "expiry_deletion_interval_secs"
  | recoverySecs => "recovery_interval_secs"
  | workers => "dispatcher_workers"
  | queueCapacity => "dispatcher_queue_capacity"
  | window => "subscriber_max_unacked"

def variableName : Quantity → String
  | maxUndelivered => "BLIPMQ_MAX_READ_BUT_UNDELIVERED"
  | expirySecs => "BLIPMQ_EXPIRY_DELETION_INTERVAL_SECS"
  | recoverySecs => "BLIPMQ_RECOVERY_INTERVAL_SECS"
  | workers => "BLIPMQ_DISPATCHER_WORKERS"
  | queueCapacity => "BLIPMQ_DISPATCHER_QUEUE_CAPACITY"
  | window => "BLIPMQ_SUBSCRIBER_MAX_UNACKED"

def given (f : FileSettings) : Quantity → Option UInt64
  | maxUndelivered => f.maxUndelivered
  | expirySecs => f.expirySecs
  | recoverySecs => f.recoverySecs
  | workers => f.workers
  | queueCapacity => f.queueCapacity
  | window => f.window

def get (s : Settings) : Quantity → UInt64
  | maxUndelivered => s.maxUndelivered
  | expirySecs => s.expirySecs
  | recoverySecs => s.recoverySecs
  | workers => s.workers
  | queueCapacity => s.queueCapacity
  | window => s.window

end Quantity

inductive Setting where
  | number (q : Quantity)
  | topics
  deriving DecidableEq

namespace Setting

def all : List Setting :=
  [number .maxUndelivered, topics, number .expirySecs, number .recoverySecs, number .workers,
    number .queueCapacity, number .window]

abbrev Value : Setting → Type
  | number _ => UInt64
  | topics => TopicStrategy

def variableName : Setting → String
  | number q => q.variableName
  | topics => "BLIPMQ_TOPIC_DELIVERY_STRATEGY"

def given (f : FileSettings) : (k : Setting) → Option k.Value
  | number q => q.given f
  | topics => f.topics

def get (s : Settings) : (k : Setting) → k.Value
  | number q => q.get s
  | topics => s.topics

/-- A text gives a number if it writes it, and a strategy if it names it in any ASCII case. White
space around it does not matter. -/
def Reads : (k : Setting) → String → k.Value → Prop
  | number _, text, n => ∃ l, Text.Padded text.toList l ∧ Text.Numeral l n
  | topics, text, t => ∃ l, Text.Padded text.toList l ∧ l.map Char.toLower = t.name.toList

def Rejects : Setting → String → SettingsError → Prop
  | number q, text, e => ∃ l cause, Text.Padded text.toList l ∧ Text.Misspelt l cause ∧
      e = .number q.variableName cause
  | topics, text, e => ∃ l, Text.Padded text.toList l ∧
      (∀ t : TopicStrategy, l.map Char.toLower ≠ t.name.toList) ∧
      e = .strategy (String.ofList (l.map Char.toLower))

def Accepts (env : Environment) (k : Setting) : Prop :=
  ∀ text, env k.variableName = some text → ∃ v, k.Reads text v

/-- The environment goes before the file, and the file before the standard. -/
def Effective (env : Environment) (f : FileSettings) (k : Setting) (v : k.Value) : Prop :=
  match env k.variableName with
  | some text => k.Reads text v
  | none => v = (k.given f).getD (k.get standard)

end Setting

namespace Settings

inductive Source (read : String → Except SettingsError FileSettings) (env : Environment) :
    Option String → Except SettingsError FileSettings → Prop
  | path (p : String) : Source read env (some p) (read p)
  | named {p : String} (set : env fileVariable = some p) : Source read env none (read p)
  | nowhere (unset : env fileVariable = none) : Source read env none (.ok .empty)

inductive Reported (read : String → Except SettingsError FileSettings) (path : Option String)
    (env : Environment) : SettingsError → Prop
  | file {e : SettingsError} (source : Source read env path (.error e)) : Reported read path env e
  | rejected {f : FileSettings} {e : SettingsError} {k : Setting} {before after : List Setting}
      {text : String} (source : Source read env path (.ok f))
      (order : Setting.all = before ++ k :: after) (earlier : ∀ j ∈ before, j.Accepts env)
      (set : env k.variableName = some text) (rejects : k.Rejects text e) :
      Reported read path env e
  | zero {f : FileSettings} {q : Quantity} {before after : List Quantity}
      (source : Source read env path (.ok f)) (accepted : ∀ k : Setting, k.Accepts env)
      (order : Quantity.all = before ++ q :: after)
      (earlier : ∀ p ∈ before, ∀ n, (Setting.number p).Effective env f n → n ≠ 0)
      (zero : (Setting.number q).Effective env f 0) : Reported read path env (.zero q.name)

variable {read : String → Except SettingsError FileSettings} {path : Option String}
  {env : Environment} {f : FileSettings} {s s' : Settings} {e : SettingsError} {k : Setting}

theorem source_iff {x : Except SettingsError FileSettings} :
    Source read env path x ↔ fileSettings read path env = x := by
  constructor
  · intro h
    cases h with
    | path p => rfl
    | named set => rw [fileSettings, Option.none_or, set]
    | nowhere unset => rw [fileSettings, Option.none_or, unset]
  · rintro rfl
    cases path with
    | some p => exact .path p
    | none =>
        rw [fileSettings, Option.none_or]
        cases h : env fileVariable with
        | some p => exact .named h
        | none => exact .nowhere h

theorem readNumber_eq_ok_iff {name text : String} {n : UInt64} :
    readNumber name text = .ok n ↔ ∃ l, Text.Padded text.toList l ∧ Text.Numeral l n := by
  simp only [Text.padded_iff, exists_eq_left', ← Text.readWord_eq_ok_iff, readNumber]
  cases Text.readWord (Text.trim text.toList) <;> simp

theorem readNumber_eq_error_iff {name text : String} :
    readNumber name text = .error e ↔
      ∃ l cause, Text.Padded text.toList l ∧ Text.Misspelt l cause ∧ e = .number name cause := by
  simp only [Text.padded_iff, exists_and_left, exists_eq_left', ← Text.readWord_eq_error_iff,
    readNumber]
  cases Text.readWord (Text.trim text.toList) with
  | error cause =>
      refine ⟨fun h => ⟨cause, rfl, (Except.error.inj h).symm⟩, ?_⟩
      rintro ⟨_, ⟨⟩, rfl⟩
      rfl
  | ok n => simp

end Settings

namespace TopicStrategy

theorem ofName?_eq_some_iff {text : String} {t : TopicStrategy} :
    ofName? text = some t ↔ t.name = text :=
  ⟨fun h => by simpa using List.find?_some h, fun h => h ▸ ofName?_name t⟩

theorem name_eq_ofList_iff {l : List Char} {t : TopicStrategy} :
    t.name = String.ofList l ↔ l = t.name.toList :=
  ⟨fun h => by rw [h, String.toList_ofList], fun h => by rw [h, String.ofList_toList]⟩

theorem read_eq_ok_iff {text : String} {t : TopicStrategy} :
    read text = .ok t ↔ (Text.trim text.toList).map Char.toLower = t.name.toList := by
  rw [← name_eq_ofList_iff, ← ofName?_eq_some_iff, read, Text.map_lowerAscii]
  cases ofName? (String.ofList ((Text.trim text.toList).map Char.toLower)) <;> simp

theorem read_eq_error_iff {text : String} {e : SettingsError} :
    read text = .error e ↔
      (∀ t : TopicStrategy, (Text.trim text.toList).map Char.toLower ≠ t.name.toList) ∧
        e = .strategy (String.ofList ((Text.trim text.toList).map Char.toLower)) := by
  simp only [Ne, ← name_eq_ofList_iff, ← ofName?_eq_some_iff, read, Text.map_lowerAscii]
  cases ofName? (String.ofList ((Text.trim text.toList).map Char.toLower)) <;> simp [eq_comm]

end TopicStrategy

namespace Setting

variable {env : Environment} {f : FileSettings} {s : Settings} {e : SettingsError} {k : Setting}

theorem mem_all (k : Setting) : k ∈ all := by
  rcases k with (_ | _) | _ <;> decide

def overridden (env : Environment) (s : Settings) : (k : Setting) → Except SettingsError k.Value
  | number q => overrideNumber env q.variableName (q.get s)
  | topics => overrideStrategy env topics.variableName s.topics

theorem overridden_eq_ok_iff {v : k.Value} :
    k.overridden env s = .ok v ↔
      match env k.variableName with
      | some text => k.Reads text v
      | none => v = k.get s := by
  cases k with
  | number q =>
      rw [overridden, overrideNumber, variableName]
      cases env q.variableName with
      | some text => exact readNumber_eq_ok_iff
      | none => exact ⟨fun h => (Except.ok.inj h).symm, fun h => congrArg Except.ok h.symm⟩
  | topics =>
      rw [overridden, overrideStrategy]
      cases env topics.variableName with
      | some text =>
          refine TopicStrategy.read_eq_ok_iff.trans ?_
          simp only [Reads, Text.padded_iff, exists_eq_left']
      | none => exact ⟨fun h => (Except.ok.inj h).symm, fun h => congrArg Except.ok h.symm⟩

theorem overridden_eq_error_iff :
    k.overridden env s = .error e ↔ ∃ text, env k.variableName = some text ∧ k.Rejects text e := by
  cases k with
  | number q =>
      rw [overridden, overrideNumber, variableName]
      cases env q.variableName with
      | some text =>
          simp only [Option.some.injEq, exists_eq_left']
          exact readNumber_eq_error_iff
      | none => simp
  | topics =>
      rw [overridden, overrideStrategy]
      cases env topics.variableName with
      | some text =>
          simp only [Option.some.injEq, exists_eq_left', Rejects, Text.padded_iff]
          exact TopicStrategy.read_eq_error_iff
      | none => simp

end Setting

def error? {ε α : Type} : Except ε α → Option ε
  | .error e => some e
  | .ok _ => none

section Chains

variable {ε α β : Type} {x : Except ε α} {next : α → Except ε β} {e : ε} {o : Option ε}

theorem error?_eq_some_iff : error? x = some e ↔ x = .error e := by
  cases x <;> simp [error?]

theorem error?_eq_none_iff : error? x = none ↔ ∃ a, x = .ok a := by
  cases x <;> simp [error?]

/-- In a chain the first fault counts. -/
theorem error?_bind (h : ∀ a, error? (next a) = o) : error? (x >>= next) = (error? x).or o := by
  cases x with
  | error e => rfl
  | ok a => exact h a

theorem bind_eq_ok_iff {b : β} : (x >>= next) = .ok b ↔ ∃ a, x = .ok a ∧ next a = .ok b := by
  cases x with
  | error e => exact ⟨nofun, fun ⟨a, ha, _⟩ => nomatch ha⟩
  | ok a => exact ⟨fun h => ⟨a, rfl, h⟩, by rintro ⟨_, ⟨⟩, h⟩; exact h⟩

end Chains

namespace Settings

variable {read : String → Except SettingsError FileSettings} {path : Option String}
  {env : Environment} {f : FileSettings} {s s' : Settings} {e : SettingsError} {k : Setting}

theorem error?_override (env : Environment) (s : Settings) :
    error? (override env s) = Setting.all.findSome? fun k => error? (k.overridden env s) := by
  simp only [Setting.all, findSome?_cons_eq_or, List.findSome?_nil]
  unfold override
  iterate 7 refine error?_bind fun _ => ?_
  rfl

theorem override_eq_ok_iff :
    override env s = .ok s' ↔ ∀ k : Setting, k.overridden env s = .ok (k.get s') := by
  unfold override
  constructor
  · intro h
    simp only [bind_eq_ok_iff] at h
    obtain ⟨_, h₁, _, h₂, _, h₃, _, h₄, _, h₅, _, h₆, _, h₇, ⟨⟩⟩ := h
    rintro (q | _)
    · cases q <;> assumption
    · exact h₂
  · intro h
    simp only [bind_eq_ok_iff]
    exact ⟨_, h (.number .maxUndelivered), _, h .topics, _, h (.number .expirySecs), _,
      h (.number .recoverySecs), _, h (.number .workers), _, h (.number .queueCapacity), _,
      h (.number .window), rfl⟩

theorem error?_overridden_eq_none_iff :
    error? (k.overridden env s) = none ↔ k.Accepts env := by
  rw [error?_eq_none_iff, Setting.Accepts]
  simp only [Setting.overridden_eq_ok_iff]
  cases env k.variableName <;> simp

theorem exists_override_iff :
    (∃ s', override env s = .ok s') ↔ ∀ k : Setting, k.Accepts env := by
  rw [← error?_eq_none_iff, error?_override, List.findSome?_eq_none_iff]
  simp only [error?_overridden_eq_none_iff]
  exact ⟨fun h k => h k k.mem_all, fun h k _ => h k⟩

theorem override_eq_error_iff :
    override env s = .error e ↔ ∃ before k after, Setting.all = before ++ k :: after ∧
      (∃ text, env k.variableName = some text ∧ k.Rejects text e) ∧
        ∀ j ∈ before, j.Accepts env := by
  rw [← error?_eq_some_iff, error?_override, List.findSome?_eq_some_iff]
  simp only [error?_eq_some_iff, Setting.overridden_eq_error_iff, error?_overridden_eq_none_iff]

theorem error?_check (s : Settings) :
    error? (check s) = Quantity.all.findSome? fun q =>
      if q.get s = 0 then some (.zero q.name) else none := by
  have haboveZero : ∀ q : Quantity, error? (aboveZero q.name (q.get s)) =
      if q.get s = 0 then some (.zero q.name) else none := by
    intro q
    unfold aboveZero
    split <;> rfl
  simp only [Quantity.all, findSome?_cons_eq_or, List.findSome?_nil, ← haboveZero]
  unfold check
  iterate 6 refine error?_bind fun _ => ?_
  rfl

theorem aboveZero_eq_ok_iff {name : String} {n : UInt64} {u : Unit} :
    aboveZero name n = .ok u ↔ n ≠ 0 := by
  unfold aboveZero
  split <;> simp_all

theorem check_eq_ok_iff : check s = .ok s' ↔ s = s' ∧ ∀ q : Quantity, q.get s ≠ 0 := by
  unfold check
  simp only [bind_eq_ok_iff, aboveZero_eq_ok_iff]
  constructor
  · rintro ⟨_, h₁, _, h₂, _, h₃, _, h₄, _, h₅, _, h₆, ⟨⟩⟩
    refine ⟨rfl, fun q => ?_⟩
    cases q <;> assumption
  · rintro ⟨rfl, h⟩
    exact ⟨(), h .maxUndelivered, (), h .expirySecs, (), h .recoverySecs, (), h .workers, (),
      h .queueCapacity, (), h .window, rfl⟩

theorem check_eq_error_iff :
    check s = .error e ↔ ∃ before q after, Quantity.all = before ++ q :: after ∧
      (q.get s = 0 ∧ .zero q.name = e) ∧ ∀ p ∈ before, p.get s ≠ 0 := by
  rw [← error?_eq_some_iff, error?_check, List.findSome?_eq_some_iff]
  simp only [Option.ite_none_right_eq_some, Option.some.injEq, ite_eq_right_iff,
    reduceCtorEq, imp_false, Ne]

theorem overridden_ofFile_eq_ok_iff {v : k.Value} :
    k.overridden env (ofFile f) = .ok v ↔ k.Effective env f v := by
  have hget : k.get (ofFile f) = (k.given f).getD (k.get standard) := by
    rcases k with (_ | _) | _ <;> rfl
  rw [Setting.overridden_eq_ok_iff, hget, Setting.Effective]

theorem effective_iff (h : override env (ofFile f) = .ok s) {v : k.Value} :
    k.Effective env f v ↔ v = k.get s := by
  rw [← overridden_ofFile_eq_ok_iff, override_eq_ok_iff.1 h k, Except.ok.injEq, eq_comm]

theorem load_of_source (h : Source read env path (.ok f)) :
    load read path env = override env (ofFile f) >>= check := by
  rw [load, source_iff.1 h]
  rfl

theorem load_eq_ok_iff :
    load read path env = .ok s ↔ ∃ f, Source read env path (.ok f) ∧
      (∀ k : Setting, k.Effective env f (k.get s)) ∧ ∀ q : Quantity, q.get s ≠ 0 := by
  simp only [load, bind_eq_ok_iff, source_iff, override_eq_ok_iff, overridden_ofFile_eq_ok_iff,
    check_eq_ok_iff]
  constructor
  · rintro ⟨f, hf, s', heffective, rfl, hzero⟩
    exact ⟨f, hf, heffective, hzero⟩
  · rintro ⟨f, hf, heffective, hzero⟩
    exact ⟨f, hf, s, heffective, rfl, hzero⟩

theorem Reported.load_eq (h : Reported read path env e) : load read path env = .error e := by
  cases h with
  | file source =>
      rw [load, source_iff.1 source]
      rfl
  | @rejected f e k before after text source order earlier set rejects =>
      have hfault : override env (ofFile f) = .error e :=
        override_eq_error_iff.2 ⟨before, k, after, order, ⟨text, set, rejects⟩, earlier⟩
      rw [load_of_source source, hfault]
      rfl
  | @zero f q before after source accepted order earlier zero =>
      obtain ⟨s, hs⟩ := exists_override_iff.2 accepted
      have hzero : q.get s = 0 := ((effective_iff hs).1 zero).symm
      have hbefore : ∀ p ∈ before, p.get s ≠ 0 := fun p hp =>
        earlier p hp _ ((effective_iff hs).2 rfl)
      rw [load_of_source source, hs]
      exact check_eq_error_iff.2 ⟨before, q, after, order, ⟨hzero, rfl⟩, hbefore⟩

theorem reported_of_load (h : load read path env = .error e) : Reported read path env e := by
  cases hfile : fileSettings read path env with
  | error e' =>
      rw [load, hfile] at h
      obtain rfl := Except.error.inj h
      exact .file (source_iff.2 hfile)
  | ok f =>
      have source := source_iff.2 hfile
      rw [load_of_source source] at h
      cases hs : override env (ofFile f) with
      | error e' =>
          rw [hs] at h
          obtain rfl := Except.error.inj h
          obtain ⟨before, k, after, order, ⟨text, set, rejects⟩, earlier⟩ :=
            override_eq_error_iff.1 hs
          exact .rejected source order earlier set rejects
      | ok s =>
          rw [hs] at h
          obtain ⟨before, q, after, order, ⟨hzero, rfl⟩, hbefore⟩ := check_eq_error_iff.1 h
          refine .zero source (exists_override_iff.1 ⟨s, hs⟩) order (fun p hp n hn => ?_) ?_
          · exact (effective_iff hs).1 hn ▸ hbefore p hp
          · exact (effective_iff hs).2 hzero.symm

/-- Loading gives settings exactly if the file can be had, every variable that is set gives a value,
and none of the numbers in effect is zero. Each setting is then the one in effect, by itself: its
variable's, else the file's, else the standard one, so that a variable also mends a zero in the
file. Otherwise the first thing that is wrong is reported: the file, then the variables in the order
of the settings, then the zeros in the same order. -/
theorem load_by_precedence (read : String → Except SettingsError FileSettings)
    (path : Option String) (env : Environment) :
    ((∃ s, load read path env = .ok s) ↔ ∃ f, Source read env path (.ok f) ∧
        (∀ k : Setting, k.Accepts env) ∧
          ∀ (q : Quantity) (n : UInt64), (Setting.number q).Effective env f n → n ≠ 0) ∧
      (∀ s, load read path env = .ok s ↔ ∃ f, Source read env path (.ok f) ∧
        (∀ k : Setting, k.Effective env f (k.get s)) ∧ ∀ q : Quantity, q.get s ≠ 0) ∧
      ∀ e, load read path env = .error e ↔ Reported read path env e := by
  refine ⟨⟨?_, ?_⟩, fun s => load_eq_ok_iff, fun e => ⟨reported_of_load, Reported.load_eq⟩⟩
  · rintro ⟨s, hs⟩
    obtain ⟨f, source, heffective, hzero⟩ := load_eq_ok_iff.1 hs
    have hoverride : override env (ofFile f) = .ok s :=
      override_eq_ok_iff.2 fun k => overridden_ofFile_eq_ok_iff.2 (heffective k)
    refine ⟨f, source, exists_override_iff.1 ⟨s, hoverride⟩, fun q n hn => ?_⟩
    exact (effective_iff hoverride).1 hn ▸ hzero q
  · rintro ⟨f, source, haccepts, hzero⟩
    obtain ⟨s, hs⟩ := exists_override_iff.2 haccepts
    have heffective : ∀ k : Setting, k.Effective env f (k.get s) := fun k =>
      (effective_iff hs).2 rfl
    exact ⟨s, load_eq_ok_iff.2 ⟨f, source, heffective, fun q => hzero q _ (heffective (.number q))⟩⟩

/-- No worker in the file, but two in the environment. -/
example : load (fun _ => .ok { FileSettings.empty with workers := some 0 }) (some "broker.toml")
      (fun name => if name = "BLIPMQ_DISPATCHER_WORKERS" then some " +2 " else none) =
    .ok { standard with workers := 2 } := by
  rfl

end Settings

end Courier
