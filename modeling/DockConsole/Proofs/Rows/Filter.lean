import DockConsole.Rows
import Mathlib.Data.List.Infix

/-!
Which rows a name pattern lets through.

The search for a pattern finds exactly the runs of adjacent characters, so a filter keeps the rows
whose name has the pattern in one piece, in the order they stood.
-/

namespace DockConsole

lemma Text.includes_iff (s part : Text) : s.includes part ↔ part <:+: s := by
  induction s with
  | nil => rw [includes, List.isEmpty_iff, List.infix_nil]
  | cons c s ih =>
    rw [includes, Bool.or_eq_true, List.isPrefixOf_iff_prefix, ih, List.infix_cons_iff]

lemma Row.matchesName_iff (pattern : Text) (r : Row) :
    r.matchesName pattern ↔ pattern <:+: r.field "NAMES".toList :=
  Text.includes_iff _ _

namespace Rows

lemma filter_eq (rows : List Row) (pattern : Text) :
    filter rows pattern = rows.filter fun r => pattern <:+: r.field "NAMES".toList := by
  refine List.filter_congr fun r _ => ?_
  rw [Bool.eq_iff_iff, Row.matchesName_iff, decide_eq_true_iff]

end Rows

end DockConsole
