import PortMatch.Report.Cause
import PortMatch.Search.Solution

/-!
# Traces

What a search lets be known about its course.  An `Event` is told to an observer, who follows the
search step by step; an `Entry` goes to a log, which is read at one of three levels.  A trace holds
both, in the order in which they came about.

* `Event`, `Entry` — the two sorts of news;
* `Entry.level`, `Entry.fields` — how much an entry matters, and what it says;
* `events`, `entriesAt` — the events of a trace, and its entries at a level.
-/

namespace PortMatch

open Text

/-! ## Events -/

/-- What an observer of a search is told. -/
inductive Event where
  /-- The search begins. -/
  | starting (pattern target : String)
  /-- A round begins; rounds are counted from one. -/
  | round (index : Nat)
  /-- A node of the pattern is placed on a host. -/
  | pinning (node host : NodeId)
  /-- The alternatives of a number of nodes are used up, and the search goes back. -/
  | backtracked (steps : Nat)
  /-- The search has succeeded. -/
  | ending (solution : Solution)
  /-- The search has failed. -/
  | failed (report : Report Obstacle)
  deriving DecidableEq

/-! ## Log entries -/

/-- How much of the course of a search a log shows; each level shows all that the ones before it
show. -/
inductive Level where
  /-- The beginning and the end. -/
  | info
  /-- Every step back as well. -/
  | debug
  /-- Every pin as well. -/
  | trace
  deriving DecidableEq

namespace Level

/-- The name of a level. -/
def name : Level → String
  | info => "INFO"
  | debug => "DEBUG"
  | trace => "TRACE"

/-- The place of a level among the levels. -/
def rank : Level → Nat
  | info => 0
  | debug => 1
  | trace => 2

/-- Does a log at level `l` show entries of level `m`? -/
def shows (l m : Level) : Bool := m.rank ≤ l.rank

end Level

/-- What a log says about a search. -/
inductive Entry where
  /-- The search begins. -/
  | solveStart (pattern target : String) (patternNodes targetNodes maxRounds : Nat)
  /-- The search has succeeded. -/
  | solveEnd (rounds : Nat)
  /-- The search has failed. -/
  | solveFailed (cause : Option Obstacle)
  /-- Everything has been tried. -/
  | exhausted (rounds : Nat)
  /-- The search goes back to a node, the last of `depth` placed ones. -/
  | backtrack (depth : Nat) (node : String)
  /-- A node of the pattern is placed on a host. -/
  | pin (round : Nat) (node host : String)
  deriving DecidableEq

namespace Entry

/-- The lowest level that shows an entry. -/
def level : Entry → Level
  | solveStart .. | solveEnd .. | solveFailed .. => .info
  | exhausted .. | backtrack .. => .debug
  | pin .. => .trace

/-- What an entry says, as named texts in order; the first one names the entry. -/
def fields : Entry → List (String × String)
  | solveStart pattern target patternNodes targetNodes maxRounds =>
    [("event", "solve_start"), ("abstract_graph", pattern), ("concrete_graph", target),
      ("abstract_nodes", toString patternNodes), ("concrete_nodes", toString targetNodes),
      ("max_rounds", toString maxRounds)]
  | solveEnd rounds => [("event", "solve_end"), ("rounds", toString rounds)]
  | solveFailed cause =>
    [("event", "solve_failed"), ("cause", Detail.option (cause.map Obstacle.detail))]
  | exhausted rounds => [("event", "exhausted"), ("rounds", toString rounds)]
  | backtrack depth node => [("event", "backtrack"), ("depth", toString depth), ("node", node)]
  | pin round node host =>
    [("event", "pin"), ("round", toString round), ("abstract_node", node), ("concrete_node", host)]

end Entry

/-! ## Traces -/

/-- One piece of news about a search. -/
inductive News where
  /-- News for an observer. -/
  | event (e : Event)
  /-- News for a log. -/
  | entry (e : Entry)
  deriving DecidableEq

namespace News

/-- The event among the news, if it is one. -/
def event? : News → Option Event
  | event e => some e
  | entry _ => none

/-- The log entry among the news, if it is one. -/
def entry? : News → Option Entry
  | event _ => none
  | entry e => some e

end News

/-- The news about a search, in order. -/
abbrev Trace : Type := List News

namespace Trace

/-- What an observer is told. -/
def events (t : Trace) : List Event := t.filterMap News.event?

/-- All that a log is told. -/
def entries (t : Trace) : List Entry := t.filterMap News.entry?

/-- What a log at the given level shows. -/
def entriesAt (t : Trace) (l : Level) : List Entry := t.entries.filter fun e => l.shows e.level

end Trace

end PortMatch
