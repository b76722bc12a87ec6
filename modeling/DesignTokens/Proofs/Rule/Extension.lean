import DesignTokens.Proofs.Rule.Application
import DesignTokens.Settings

/-!
# Extended rule tables

Rules that are added stand behind the rules of their class that are there, so that a table and the added
rules are searched one after the other (`substituteKeyword_addAll`, `injectUnit_addAll`). What a table
rewrites it goes on rewriting in the same way, and what is rewritten in addition comes from an added rule
(`RuleTable.Extends`). Of added rules only the order within each class counts (`addAll_of_interleaved`).
The rules of a settings file are added to the built-in ones (`added_rules_stand_behind`).
-/

set_option autoImplicit false

namespace DesignTokens

/-! ## Interleaved rules -/

/-- A list of rules is made of given keyword rules and given unit rules, each class in its order. -/
inductive Interleaved : List KeywordRule → List UnitRule → List Rule → Prop
  | nil : Interleaved [] [] []
  | keyword {keywords : List KeywordRule} {units : List UnitRule} {rules : List Rule}
      (rule : KeywordRule) (others : Interleaved keywords units rules) :
      Interleaved (rule :: keywords) units (.keyword rule :: rules)
  | unit {keywords : List KeywordRule} {units : List UnitRule} {rules : List Rule}
      (rule : UnitRule) (others : Interleaved keywords units rules) :
      Interleaved keywords (rule :: units) (.unit rule :: rules)

/-- All rules are interleaved from the rules of each class. -/
theorem exists_interleaved (rules : List Rule) :
    ∃ keywords units, Interleaved keywords units rules := by
  induction rules with
  | nil => exact ⟨[], [], Interleaved.nil⟩
  | cons rule others ih =>
      obtain ⟨keywords, units, interleaved⟩ := ih
      cases rule with
      | keyword rule => exact ⟨rule :: keywords, units, Interleaved.keyword rule interleaved⟩
      | unit rule => exact ⟨keywords, rule :: units, Interleaved.unit rule interleaved⟩

section Members

variable {keywords : List KeywordRule} {units : List UnitRule} {rules : List Rule}
  (interleaved : Interleaved keywords units rules)

include interleaved

theorem Interleaved.keyword_mem {rule : KeywordRule} (member : rule ∈ keywords) :
    Rule.keyword rule ∈ rules := by
  induction interleaved with
  | nil => exact absurd member List.not_mem_nil
  | keyword first _ ih =>
      rcases List.mem_cons.1 member with rfl | later
      · exact List.mem_cons_self
      · exact List.mem_cons_of_mem _ (ih later)
  | unit first _ ih => exact List.mem_cons_of_mem _ (ih member)

theorem Interleaved.unit_mem {rule : UnitRule} (member : rule ∈ units) :
    Rule.unit rule ∈ rules := by
  induction interleaved with
  | nil => exact absurd member List.not_mem_nil
  | keyword first _ ih => exact List.mem_cons_of_mem _ (ih member)
  | unit first _ ih =>
      rcases List.mem_cons.1 member with rfl | later
      · exact List.mem_cons_self
      · exact List.mem_cons_of_mem _ (ih later)

/-- **Each class of added rules stands behind the rules of its class.** -/
theorem RuleTable.addAll_of_interleaved (table : RuleTable) :
    table.addAll rules = ⟨table.keywords ++ keywords, table.units ++ units⟩ := by
  -- Every rule is added before the rest, so the table grows along the induction.
  induction interleaved generalizing table with
  | nil => simp [addAll]
  | keyword rule _ ih =>
      calc (table.add (.keyword rule)).addAll _
          = ⟨(table.keywords ++ [rule]) ++ _, table.units ++ _⟩ := ih (table.add (.keyword rule))
        _ = ⟨table.keywords ++ rule :: _, table.units ++ _⟩ := by
            rw [List.append_assoc, List.singleton_append]
  | unit rule _ ih =>
      calc (table.add (.unit rule)).addAll _
          = ⟨table.keywords ++ _, (table.units ++ [rule]) ++ _⟩ := ih (table.add (.unit rule))
        _ = ⟨table.keywords ++ _, table.units ++ rule :: _⟩ := by
            rw [List.append_assoc, List.singleton_append]

end Members

namespace RuleTable

/-! ## Searching an extended table -/

/-- The added keyword rules are searched after those that are there. -/
theorem substituteKeyword_addAll (table : RuleTable) (rules : List Rule) (name : String)
    (value : Json) :
    (table.addAll rules).substituteKeyword name value =
      (table.substituteKeyword name value).or ((empty.addAll rules).substituteKeyword name value) := by
  obtain ⟨keywords, units, interleaved⟩ := exists_interleaved rules
  rw [addAll_of_interleaved interleaved, addAll_of_interleaved interleaved]
  simp only [substituteKeyword, empty, List.nil_append]
  cases value.cssText? with
  | none => rfl
  | some text => exact List.findSome?_append

/-- The added unit rules are searched after those that are there. -/
theorem injectUnit_addAll (table : RuleTable) (rules : List Rule) (name : String) (value : Json) :
    (table.addAll rules).injectUnit name value =
      (table.injectUnit name value).or ((empty.addAll rules).injectUnit name value) := by
  obtain ⟨keywords, units, interleaved⟩ := exists_interleaved rules
  rw [addAll_of_interleaved interleaved, addAll_of_interleaved interleaved]
  simp only [injectUnit, empty, List.nil_append]
  cases numericText? value with
  | none => rfl
  | some text =>
      rw [Option.bind_some, Option.bind_some, Option.bind_some, List.find?_append, Option.map_or]

/-- A table rewrites what another one rewrites, and in the same way; what it rewrites in addition comes
from one of given rules, of the same class, that applies. -/
structure Extends (extended table : RuleTable) (rules : List Rule) : Prop where
  keyword_kept : ∀ name value result, table.substituteKeyword name value = some result →
    extended.substituteKeyword name value = some result
  unit_kept : ∀ name value result, table.injectUnit name value = some result →
    extended.injectUnit name value = some result
  keyword_new : ∀ name value result, table.substituteKeyword name value = none →
    extended.substituteKeyword name value = some result →
    ∃ rule, Rule.keyword rule ∈ rules ∧ rule.AppliesTo name value ∧ rule.replacement = result
  unit_new : ∀ name value result, table.injectUnit name value = none →
    extended.injectUnit name value = some result →
    ∃ text rule, Rule.unit rule ∈ rules ∧ value.HasNumeral text ∧
      rule.family.contains name = true ∧ text ++ rule.unit = result

theorem extends_addAll (table : RuleTable) (rules : List Rule) :
    (table.addAll rules).Extends table rules := by
  obtain ⟨keywords, units, interleaved⟩ := exists_interleaved rules
  have added := addAll_of_interleaved interleaved empty
  constructor
  · intro name value result given
    rw [substituteKeyword_addAll, given, Option.some_or]
  · intro name value result given
    rw [injectUnit_addAll, given, Option.some_or]
  · -- What the table does not rewrite is rewritten by the added rules alone.
    intro name value result unknown found
    rw [substituteKeyword_addAll, unknown, Option.none_or, substituteKeyword_eq_some_iff, added] at found
    obtain ⟨rule, first, same⟩ := found
    exact ⟨rule, interleaved.keyword_mem first.mem, first.holds, same⟩
  · intro name value result unknown found
    rw [injectUnit_addAll, unknown, Option.none_or, injectUnit_eq_some_iff, added] at found
    obtain ⟨text, rule, numeral, first, same⟩ := found
    exact ⟨text, rule, interleaved.unit_mem first.mem, numeral, first.holds, same⟩

/-- The rules of settings are added to the built-in ones. -/
theorem ruleTable_eq_ok_iff (config : Config) (extended : RuleTable) :
    config.ruleTable = .ok extended ↔ ∃ rules, config.rules = .ok rules ∧ builtIn.addAll rules = extended := by
  rw [Config.ruleTable]
  cases config.rules <;> simp [Except.map]

/-- **Added rules stand behind.** A table that is extended by rules rewrites under every name what it
rewrote, keyword by keyword and unit by unit, and what it rewrites in addition comes from an added rule of
that class that applies. In which order the keyword rules and the unit rules are added among each other
makes no difference to any resolved value. So settings leave every rewriting of the built-in rules in
place. -/
theorem added_rules_stand_behind (table : RuleTable) :
    (∀ rules, (table.addAll rules).Extends table rules) ∧
      (∀ keywords units first second,
        Interleaved keywords units first → Interleaved keywords units second →
        ∀ name value,
          (table.addAll first).resolve name value = (table.addAll second).resolve name value) ∧
      ∀ (config : Config) (extended : RuleTable), config.ruleTable = .ok extended →
        ∃ rules, config.rules = .ok rules ∧ extended.Extends builtIn rules := by
  refine ⟨extends_addAll table, ?_, ?_⟩
  · intro keywords units first second isFirst isSecond name value
    rw [addAll_of_interleaved isFirst, addAll_of_interleaved isSecond]
  · intro config extended made
    obtain ⟨rules, read, rfl⟩ := (ruleTable_eq_ok_iff config extended).1 made
    exact ⟨rules, read, extends_addAll builtIn rules⟩

end RuleTable

end DesignTokens
