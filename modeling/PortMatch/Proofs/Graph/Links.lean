import PortMatch.Graph.Links

/-!
# The two stores of the links

`Links` keeps a set of pairs and a list of partners for each port.  This file says what one more
link does to each of them.

* `Link.between_eq_between_iff` — two pairs of ports have the same link when they have the same
  ports;
* `Links.contains_insert`, `Links.size_insert`, `Links.partners_insert` — the two stores after one
  more link.
-/

namespace PortMatch

namespace Link

theorem between_eq_between_iff {a b c d : PortId} :
    between a b = between c d ↔ (a = c ∧ b = d) ∨ (a = d ∧ b = c) := by
  cases a; cases b; cases c; cases d
  grind [between]

end Link

namespace Links

@[simp] theorem contains_empty (a b : PortId) : ({} : Links).contains a b = false := rfl

@[simp] theorem partners_empty (a : PortId) : ({} : Links).partners a = [] := rfl

theorem contains_comm (l : Links) (a b : PortId) : l.contains a b = l.contains b a := by
  rw [contains, contains, Link.between_comm]

theorem contains_insert (l : Links) (a b c d : PortId) :
    (l.insert a b).contains c d
      = (decide ((a = c ∧ b = d) ∨ (a = d ∧ b = c)) || l.contains c d) := by
  have hbeq : (compare (Link.between a b) (Link.between c d) == .eq)
      = decide ((a = c ∧ b = d) ∨ (a = d ∧ b = c)) := by
    rw [Bool.eq_iff_iff, beq_iff_eq, decide_eq_true_eq, ← Link.between_eq_between_iff]
    exact Std.LawfulEqCmp.compare_eq_iff_eq
  rw [contains, insert, Std.ExtTreeSet.contains_insert, hbeq]
  rfl

theorem size_insert (l : Links) {a b : PortId} (hnew : l.contains a b = false) :
    (l.insert a b).size = l.size + 1 := by
  have hpair : ¬ l.pairs.contains (Link.between a b) = true := Bool.eq_false_iff.1 hnew
  show (l.pairs.insert (Link.between a b)).size = l.pairs.size + 1
  rw [Std.ExtTreeSet.size_insert, if_neg hpair]

theorem partners_notePartner (l : Links) (a b c : PortId) :
    (l.notePartner a b).partners c = if a = c then l.partners a ++ [b] else l.partners c := by
  rw [partners, notePartner, Std.ExtTreeMap.getD_insert]
  by_cases h : a = c
  · subst h
    rw [if_pos Std.ReflCmp.compare_self, if_pos rfl]
  · rw [if_neg (fun hc => h (Std.LawfulEqCmp.eq_of_compare hc)), if_neg h]
    rfl

theorem partners_insert (l : Links) {a b : PortId} (hab : a ≠ b) (c : PortId) :
    (l.insert a b).partners c
      = if a = c then l.partners a ++ [b]
        else if b = c then l.partners b ++ [a] else l.partners c := by
  show ((l.notePartner a b).notePartner b a).partners c = _
  rw [partners_notePartner, partners_notePartner, partners_notePartner, if_neg hab]
  by_cases hc : b = c
  · subst hc
    rw [if_pos rfl, if_neg hab, if_pos rfl]
  · rw [if_neg hc, if_neg hc]

end Links

end PortMatch
