import TemplateLinker.Template.Visitor

/-!
# Template.Event — the events of a walk

Three visitors note what they meet: `full` every node, with closing events behind those that enclose
others; `leaves` texts, comments and paths; `paths` paths alone.  A walk can be stopped by the `n`-th event:
the hook that notes it then fails.
-/

namespace TemplateLinker

/-- The nodes that have a closing event. -/
inductive NodeKind where
  | template
  | block
  | mustache
  | blockStatement
  | element
  | attr
  | modifier
  | sub
  deriving DecidableEq, Repr

inductive Event where
  | template
  | block (params : List String) (hasParams : Bool) (span : Span)
  | statement (span : Span)
  | mustache (callee : Option String) (trusting : Bool) (span : Span)
  | blockStatement (callee : Option String) (hasInverse : Bool) (span : Span)
  | element (tag : String) (selfClosing : Bool) (span : Span)
  | attr (name : String) (span : Span)
  | modifier (callee : Option String) (span : Span)
  | text (chars : String) (span : Span)
  | comment (value : String) (span : Span)
  | expression (callee : Option String) (span : Span)
  | sub (callee : Option String) (span : Span)
  | path (text : String) (isThis isData : Bool) (parts : List String) (span : Span)
  | hash (keys : List String) (isEmpty : Bool)
  | close (kind : NodeKind)
  deriving DecidableEq, Repr

/-- The events noted so far; a failure tells the number of events after which the walk was stopped. -/
abbrev Tracing := ExceptT Nat (StateM (Array Event))

namespace Tracing

/-- Notes an event, and fails if it is the one to stop at. -/
def note (stopAt : Option Nat) (e : Event) : Tracing Unit := fun events =>
  let events := events.push e
  if stopAt = some events.size then (.error events.size, events) else (.ok (), events)

/-- Notes an event before a walk and the closing event behind it. -/
def enclose (stopAt : Option Nat) (e : Event) (kind : NodeKind) (walk : Tracing Unit) : Tracing Unit := do
  note stopAt e
  walk
  note stopAt (.close kind)

end Tracing

namespace Event

def ofPath (p : Path) : Event := .path p.text p.isThis p.isData p.parts p.span

def ofText (n : TextNode) : Event := .text n.chars n.span

def ofComment (n : Comment) : Event := .comment n.value n.span

def ofHash (hash : List Named) : Event := .hash (hash.map Named.key) hash.isEmpty

end Event

namespace Visitor

open Tracing

/-- Notes every node. -/
def full (stopAt : Option Nat) : Visitor Tracing where
  template _ walk := enclose stopAt .template .template walk
  block b walk := enclose stopAt (.block b.params b.hasParams b.span) .block walk
  statement s walk := do
    note stopAt (.statement s.span)
    walk
  mustache n walk := enclose stopAt (.mustache n.call.name? n.trusting n.span) .mustache walk
  blockStatement n walk :=
    enclose stopAt (.blockStatement n.call.name? n.inverse.isSome n.span) .blockStatement walk
  element n walk := enclose stopAt (.element n.tag n.selfClosing n.span) .element walk.all
  attr n walk := enclose stopAt (.attr n.name n.span) .attr walk
  modifier n walk := enclose stopAt (.modifier n.call.name? n.span) .modifier walk
  text n := note stopAt (.ofText n)
  comment n := note stopAt (.ofComment n)
  expression e walk := do
    note stopAt (.expression e.name? e.span)
    walk
  subExpression call span walk := enclose stopAt (.sub call.name? span) .sub walk
  path p := note stopAt (.ofPath p)
  hash ns walk := do
    note stopAt (.ofHash ns)
    walk

/-- Notes texts, comments and paths. -/
def leaves (stopAt : Option Nat) : Visitor Tracing where
  text n := note stopAt (.ofText n)
  comment n := note stopAt (.ofComment n)
  path p := note stopAt (.ofPath p)

/-- Notes paths. -/
def paths (stopAt : Option Nat) : Visitor Tracing where
  path p := note stopAt (.ofPath p)

/-- Notes nothing. -/
def silent : Visitor Tracing where

/-- Where a walk over a template was stopped, if it was, and what was noted. -/
def trace (v : Visitor Tracing) (t : Template) : Option Nat × List Event :=
  match (v.visitTemplate t).run #[] with
  | (.ok (), events) => (none, events.toList)
  | (.error n, events) => (some n, events.toList)

end Visitor

/-- What is said about a walk stopped after `n` events. -/
def stoppedMessage (n : Nat) : String := s!"stopped at {n}"

end TemplateLinker
