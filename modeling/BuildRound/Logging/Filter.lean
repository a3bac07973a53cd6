import BuildRound.Logging.Directive

/-!
# Log filters

A filter is a list of directives. Of the rules that apply to an event the most specific one decides: one for
a longer origin before one for a shorter or none, then one for a field before one for none, and of two rules
for the same events the later one. An event that no rule applies to does not pass. Directives that ask for a
span or for the value of a field are about what happens inside of spans, so they are no rules for events.
-/

namespace BuildRound.Logging

/-- An event as a filter sees it. -/
structure Event where
  origin : String
  level : Log.Level
  fields : List String
  deriving DecidableEq, Repr

/-! ## Rules -/

/-- A threshold for the events whose origin begins with a text and that have a field. -/
structure Rule where
  origin : Option String := none
  field : Option String := none
  threshold : Threshold
  deriving DecidableEq, Repr

namespace Rule

def ofDirective? (d : Directive) : Option Rule :=
  match d.span, d.field with
  | none, none => some ⟨d.origin, none, d.threshold⟩
  | none, some ⟨name, none⟩ => some ⟨d.origin, some name, d.threshold⟩
  | _, _ => none

def applies (r : Rule) (e : Event) : Bool :=
  r.origin.all (e.origin.startsWith ·) && r.field.all (e.fields.contains ·)

/-- How much of the origin a rule fixes; it fixes more if it names one than if it names none. -/
def reach (r : Rule) : Nat :=
  (r.origin.map (fun origin => origin.utf8ByteSize + 1)).getD 0

/-- Whether a rule comes before another one that applies to the same event. -/
def precedes (r s : Rule) : Bool :=
  s.reach < r.reach || (r.reach = s.reach && decide (s.field.getD "" < r.field.getD ""))

end Rule

/-! ## Filters -/

/-- The rules that decide which events pass, the latest last. -/
structure Filter where
  rules : List Rule
  deriving DecidableEq, Repr

namespace Filter

def decisive? (f : Filter) (e : Event) : Option Rule :=
  (f.rules.filter (·.applies e)).foldl
    (fun best r =>
      match best with
      | none => some r
      | some best => if best.precedes r then some best else some r)
    none

def passes (f : Filter) (e : Event) : Bool :=
  (f.decisive? e).any (·.threshold.passes e.level)

def ofDirectives (ds : List Directive) : Filter :=
  ⟨ds.filterMap Rule.ofDirective?⟩

/-- The directives of a filter as a text lists them. -/
def pieces (text : String) : List String :=
  (text.splitOn ",").filter (!·.isEmpty)

/-- The filter that the environment gives. All its directives have to be readable. -/
def ofEnvironment? (text : String) : Option Filter :=
  ((pieces text).mapM Directive.ofText?).map ofDirectives

/-- The filter that settings give. Directives that are not readable are left out; if none is left, errors
pass. -/
def ofSettings (text : String) : Filter :=
  match (pieces text).filterMap Directive.ofText? with
  | [] => ⟨[⟨none, none, some .error⟩]⟩
  | ds => ofDirectives ds

end Filter

end BuildRound.Logging
