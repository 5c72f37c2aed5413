/-! Accesses that have no answer. A fault is neither a failed match nor a tripped limit: it says
that an offset, a register or a node was asked for that does not exist, or that visits nest deeper
than they ever should. An offset exists where a character starts or the text ends. Compiling an
expression and matching from a character boundary never leads to a fault; the operations that take
raw offsets and raw node ids can. -/
namespace BacktrackRegex

inductive Fault where
  | offset
  | register
  | node
  | nesting
  deriving DecidableEq, Repr

end BacktrackRegex
