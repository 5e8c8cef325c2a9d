import QueryMix.Text.Ending

/-!
# `QueryMix.Trace.Level`: levels, topics and filters of trace notes

A note has a level, which says how much it matters, and a topic, the part of the work that it
tells about. A filter lets a note pass when its level is at least as weighty as the filter's
and its topic is among those asked for; a filter that asks for no topic lets all of them
pass.
-/

set_option autoImplicit false

namespace QueryMix.Trace

/-- How much a note matters, or how much is asked for. -/
inductive Level where
  | silent
  | error
  | warn
  | info
  | debug
  | trace
deriving DecidableEq, Repr

namespace Level

/-- All levels, the weightiest first. -/
def all : List Level := [silent, error, warn, info, debug, trace]

/-- The place of the level: the more is let through, the higher. -/
def rank : Level → Nat
  | silent => 0
  | error => 1
  | warn => 2
  | info => 3
  | debug => 4
  | trace => 5

/-- The level as it is shown. -/
def label : Level → String
  | silent => "NONE"
  | error => "ERROR"
  | warn => "WARN"
  | info => "INFO"
  | debug => "DEBUG"
  | trace => "TRACE"

/-- The level for a number of requests for more; asking for everything wins over the number. -/
def ofVerbosity (count : Nat) (everything : Bool) : Level :=
  if everything then trace
  else
    match count with
    | 0 => error
    | 1 => warn
    | 2 => info
    | 3 => debug
    | _ => trace

end Level

/-- The parts of the work that notes tell about. -/
inductive Topic where
  | scan
  | normalize
  | encode
  | decode
  | store
deriving DecidableEq, Repr

namespace Topic

/-- All topics, in the order in which they are listed to a user. -/
def all : List Topic := [scan, normalize, encode, decode, store]

/-- The name by which a user asks for the topic. -/
def name : Topic → String
  | scan => "scan"
  | normalize => "normalize"
  | encode => "encode"
  | decode => "decode"
  | store => "store"

end Topic

/-- Which notes are let through. -/
structure Filter where
  level : Level
  /-- The names of the topics asked for; none means all of them. -/
  topics : List Text
deriving DecidableEq, Repr

/-- Do two names agree, whatever the case of ASCII letters? -/
def sameName (s t : Text) : Bool := Text.foldCase s == Text.foldCase t

/-- Does the filter let notes of the level on the topic through? -/
def Filter.admits (filter : Filter) (level : Level) (topic : Text) : Bool :=
  level != .silent && level.rank ≤ filter.level.rank
    && (filter.topics.isEmpty || filter.topics.any (sameName topic))

end QueryMix.Trace
