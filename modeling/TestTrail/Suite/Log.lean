/-
What the coordinator was told, as lines of text, gathered per method.

Lines about the whole context are gathered under the empty name. The workers of a suite take turns in any order, but the
lines of one method are always in the order in which its worker went on.
-/
import TestTrail.Suite

namespace TestTrail.Hook

/-- the method a line is about -/
def method : Hook → String
  | contextStart _ => ""
  | methodStart _ m => m
  | methodEnd r _ _ => r.method
  | contextEnd _ => ""

def line : Hook → String
  | contextStart c => "context_start " ++ c
  | methodStart c _ => "start in " ++ c
  | methodEnd r count state =>
    "end retry=" ++ toString r.retry.toNat ++ " count=" ++ toString count.toNat ++ " state=" ++ state.label ++
      " status=" ++ r.status.label
  | contextEnd c => "context_end " ++ c

/-- adds a line to those of its method -/
def gather (log : Keyed (List String)) (h : Hook) : Keyed (List String) :=
  log.set h.method ((log.get? h.method).getD [] ++ [h.line])

def linesByMethod (hooks : List Hook) : Keyed (List String) := hooks.foldl gather []

end TestTrail.Hook
