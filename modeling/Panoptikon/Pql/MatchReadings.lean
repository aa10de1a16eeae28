import Panoptikon.Foundation.Fallible
import Panoptikon.Pql.MatchFilter
import Mathlib.Data.List.Lookmap

/-!
# Where the two readings of a match filter agree

The scanner tests a candidate row in memory; the query compiler emits an SQL
condition. Comparisons, lists, conjunctions, disjunctions and negations agree
on every populated row. Pattern tests agree when LIKE reads the pattern
verbatim: the in-memory tests know no wildcard and no case folding, and take a
pattern on a column that is not a text for a failed test.
-/

namespace Panoptikon.Pql

open Foundation Foundation.Sql

/-- A row with a value in every column. -/
def PopulatedRow := ∀ column : Column, column.Domain

namespace PopulatedRow

def obj (row : PopulatedRow) : MatchValue := fun column => some (row column)

def field (row : PopulatedRow) (column : Column) : FieldValue := column.kind.field (row column)

def blankField : (kind : Column.Kind) → kind.Domain
  | .int => (0 : Int)
  | .float => (0 : ℚ)
  | .string => ""

/-- Zero in every number, nothing in every text. -/
def blank : PopulatedRow := fun column => blankField column.kind

theorem lookup_obj (row : PopulatedRow) (column : Column) :
    (collectMatchValueFields row.obj).lookup column = some (row.field column) := by
  have collected : collectMatchValueFields row.obj =
      Column.collected.map fun column => (column, row.field column) := by
    unfold collectMatchValueFields
    rw [← List.filterMap_eq_map]
    rfl
  rw [collected]
  exact List.lookup_graph row.field (Column.mem_collected column)

end PopulatedRow

/-- The scope reads the row's columns where the compiler looks for them. -/
def Shows (scope : Scope) (row : PopulatedRow) : Prop :=
  ∀ column : Column, scope.get column.home.1 column.home.2 = (row.field column).toValue

def MatchOp.pattern? : MatchOp → Option (LikeKind × Bool)
  | .startsWith => some (.startsWith, false)
  | .notStartsWith => some (.startsWith, true)
  | .endsWith => some (.endsWith, false)
  | .notEndsWith => some (.endsWith, true)
  | .contains => some (.contains, false)
  | .notContains => some (.contains, true)
  | _ => none

def FieldValue.PlainPattern (caseSensitive : Bool) : FieldValue → Prop
  | .string pattern => Plain caseSensitive pattern.toList
  | _ => False

def Operand.PlainPatterns (caseSensitive : Bool) : MatchOp × Operand → Prop
  | (op, .list values) => op.pattern?.isSome →
      ∀ field ∈ collectMatchValuesFields values, ∀ value ∈ field.2.toList,
        value.PlainPattern caseSensitive
  | (_, .value _) => True

def Matches.parts : Matches → List MatchOps
  | .and_ operands | .or_ operands => operands
  | .not_ operand | .ops operand => [operand]

/-- Every pattern of the filter is a text that LIKE matches verbatim. -/
def Match.PlainPatterns (caseSensitive : Bool) (filter : Match) : Prop :=
  ∀ ops ∈ filter.match_.parts, ∀ entry ∈ ops.operands, Operand.PlainPatterns caseSensitive entry

def LikeKind.check : LikeKind → String → String → Bool
  | .startsWith => strStartsWith
  | .endsWith => strEndsWith
  | .contains => strContains

variable {caseSensitive : Bool}

variable (kind : LikeKind)

theorem like_make_pattern {pattern text : String} (plain : Plain caseSensitive pattern.toList) :
    like caseSensitive (kind.makePattern pattern) text = kind.check text pattern := by
  have verbatim : ∀ chars : List Char, SameChars caseSensitive pattern.toList chars ↔
      pattern.toList = chars := fun chars => same_chars_iff_eq plain.2
  rw [Bool.eq_iff_iff]
  cases kind with
  | startsWith =>
    simp only [like, LikeKind.makePattern, String.toList_append, LikeKind.check, strStartsWith,
      decide_eq_true_eq]
    refine (prefix_like_chars plain.1).trans ?_
    simp [verbatim]
  | endsWith =>
    simp only [like, LikeKind.makePattern, String.toList_append, LikeKind.check, strEndsWith,
      decide_eq_true_eq]
    refine (like_chars_suffix plain.1).trans ?_
    simp [verbatim]
  | contains =>
    simp only [like, LikeKind.makePattern, String.toList_append, LikeKind.check, strContains,
      decide_eq_true_eq, List.append_assoc]
    refine (infix_like_chars plain.1).trans ?_
    simp [verbatim]

section Agreement

variable {floats : FloatText} {dialect : Dialect} {tables : Tables} {scope : Scope}
  {row : PopulatedRow}

/-- The condition comes out, in this scope, as the given truth value. -/
def Decides (dialect : Dialect) (tables : Tables) (scope : Scope) (condition : Expr)
    (outcome : Bool) : Prop :=
  (condition.eval dialect tables [scope] scope).truth = some outcome

theorem eval_column (dialect : Dialect) (tables : Tables) (shown : Shows scope row) (column : Column) :
    column.expr.eval dialect tables [scope] scope = (row.field column).toValue :=
  shown column

def MatchOp.ofComparison : Comparison → MatchOp
  | .eq => .eq
  | .ne => .neq
  | .gt => .gt
  | .gte => .gte
  | .lt => .lt
  | .lte => .lte

theorem compare_is_eq {Elem : Type} [LinearOrder Elem] (left right : Elem) :
    (compare left right).isEq = decide (left = right) := by
  rw [Bool.eq_iff_iff, Ordering.isEq_iff_eq_eq, compare_eq_iff_eq, decide_eq_true_eq]

theorem is_ge_eq (ordering : Ordering) : ordering.isGE = (ordering.isGT || ordering.isEq) := by
  cases ordering <;> rfl

theorem is_le_eq (ordering : Ordering) : ordering.isLE = (ordering.isLT || ordering.isEq) := by
  cases ordering <;> rfl

theorem compare_fields (kind : Column.Kind) (left right : kind.Domain) (comparison : Comparison) :
    compareValues comparison (kind.field left).toValue (kind.field right).toValue =
      some (compareField (kind.field left) (kind.field right) (.ofComparison comparison)) := by
  cases kind with
  | int =>
    change Int at left right
    refine (compare_values_int comparison left right).trans ?_
    cases comparison <;> simp [Comparison.holds, compareField, compareOrdered, Column.Kind.field,
      MatchOp.ofComparison, compare_is_eq, is_ge_eq, is_le_eq]
  | float =>
    change ℚ at left right
    refine (compare_values_real comparison left right).trans ?_
    cases comparison <;> simp [Comparison.holds, compareField, compareOrdered, Column.Kind.field,
      MatchOp.ofComparison, compare_is_eq, is_ge_eq, is_le_eq]
  | string =>
    change String at left right
    refine (compare_values_text comparison left right).trans ?_
    cases comparison <;> simp [Comparison.holds, compareField, compareOrdered, Column.Kind.field,
      MatchOp.ofComparison, compare_is_eq, is_ge_eq, is_le_eq]

theorem in_truth_fields (kind : Column.Kind) (left : kind.Domain) (members : List kind.Domain) :
    inTruth (kind.field left).toValue ((members.map kind.field).map FieldValue.toValue) =
      some ((members.map kind.field).any fun value => kind.field left = value) := by
  induction members with
  | nil => rfl
  | cons first rest ih =>
    have head := compare_fields kind left first .eq
    have unfolded : inTruth (kind.field left).toValue
        (((first :: rest).map kind.field).map FieldValue.toValue) =
        orTruth (compareValues .eq (kind.field left).toValue (kind.field first).toValue)
          (inTruth (kind.field left).toValue ((rest.map kind.field).map FieldValue.toValue)) :=
      rfl
    rw [unfolded, head, ih, or_truth_some]
    rfl

theorem compare_pattern {op : MatchOp} {kind : LikeKind} {negate : Bool}
    (pattern : op.pattern? = some (kind, negate)) (text : String) {values : FieldValues}
    {patterns : List String} (strings : values.toList = patterns.map .string) :
    compareFieldList (.string text) values op =
      if negate then (patterns.map fun pattern => !kind.check text pattern).all id
      else (patterns.map fun pattern => kind.check text pattern).any id := by
  cases op <;> cases pattern <;>
    simp [compareFieldList, stringListCheck, strings, LikeKind.check, Function.comp_def]

variable {column : Expr}

theorem like_decides {text pattern : String} {kind : LikeKind} (negate : Bool)
    (read : column.eval dialect tables [scope] scope = .text text)
    (plain : Plain dialect.caseSensitiveLike pattern.toList) : Decides dialect tables scope
      (if negate then .notLike column (kind.makePattern pattern)
        else .like column (kind.makePattern pattern))
      (if negate then !kind.check text pattern else kind.check text pattern) := by
  cases negate <;>
    simp [Decides, Expr.eval, read, likeTruth, Dialect.textOf, like_make_pattern kind plain]

variable {conditions : List Expr}

variable {outcomes : List Bool}

variable {whole : Expr}

theorem combine_decides {connective : Expr → Expr → Expr} {join : Bool → Bool → Bool}
    (step : ∀ {left right : Expr} {first second : Bool}, Decides dialect tables scope left first →
      Decides dialect tables scope right second →
      Decides dialect tables scope (connective left right) (join first second))
    (each : List.Forall₂ (Decides dialect tables scope) conditions outcomes)
    (built : combine connective conditions = .ok whole) : ∃ first rest, outcomes = first :: rest ∧
      Decides dialect tables scope whole (rest.foldl join first) := by
  cases each with
  | nil => cases built
  | @cons condition first conditions rest decided others =>
    refine ⟨first, rest, rfl, ?_⟩
    cases built
    induction others generalizing condition first with
    | nil => exact decided
    | cons next _ ih => exact ih (step decided next)

theorem foldl_and (first : Bool) (rest : List Bool) : rest.foldl and first = (first :: rest).all id := by
  induction rest generalizing first with
  | nil => simp
  | cons next others ih =>
    rw [List.foldl_cons, ih]
    simp [Bool.and_assoc]

theorem foldl_or (first : Bool) (rest : List Bool) : rest.foldl or first = (first :: rest).any id := by
  induction rest generalizing first with
  | nil => simp
  | cons next others ih =>
    rw [List.foldl_cons, ih]
    simp [Bool.or_assoc]

theorem combine_and_decides (each : List.Forall₂ (Decides dialect tables scope) conditions outcomes)
    (built : combineAnd conditions = .ok whole) : Decides dialect tables scope whole (outcomes.all id) := by
  have step : ∀ {left right : Expr} {first second : Bool},
      Decides dialect tables scope left first → Decides dialect tables scope right second →
      Decides dialect tables scope (.and left right) (first && second) := by
    intro left right first second decided other
    unfold Decides at decided other
    simp [Decides, Expr.eval, decided, other]
  obtain ⟨first, rest, rfl, decided⟩ := combine_decides step each built
  rw [← foldl_and]
  exact decided

theorem combine_or_decides (each : List.Forall₂ (Decides dialect tables scope) conditions outcomes)
    (built : combineOr conditions = .ok whole) : Decides dialect tables scope whole (outcomes.any id) := by
  have step : ∀ {left right : Expr} {first second : Bool},
      Decides dialect tables scope left first → Decides dialect tables scope right second →
      Decides dialect tables scope (.or left right) (first || second) := by
    intro left right first second decided other
    unfold Decides at decided other
    simp [Decides, Expr.eval, decided, other]
  obtain ⟨first, rest, rfl, decided⟩ := combine_decides step each built
  rw [← foldl_or]
  exact decided

theorem value_field {values : MatchValue} {field : Column × FieldValue}
    (member : field ∈ collectMatchValueFields values) :
    ∃ value : field.1.Domain, field.2 = field.1.kind.field value := by
  obtain ⟨column, _, found⟩ := List.mem_filterMap.mp member
  obtain ⟨value, _, rfl⟩ := Option.map_eq_some_iff.mp found
  exact ⟨value, rfl⟩

theorem values_field {values : MatchValues} {field : Column × FieldValues}
    (member : field ∈ collectMatchValuesFields values) :
    ∃ listed : OneOrMany field.1.Domain, field.2 = convertOneOrMany listed field.1.kind.field := by
  obtain ⟨column, _, found⟩ := List.mem_filterMap.mp member
  obtain ⟨listed, _, rfl⟩ := Option.map_eq_some_iff.mp found
  exact ⟨listed, rfl⟩

theorem evaluate_value_fields (values : MatchValue) (op : MatchOp) :
    evaluateOperand (collectMatchValueFields row.obj) (op, .value values) =
      (collectMatchValueFields values).map fun field =>
        compareField (row.field field.1) field.2 op := by
  simp only [evaluateOperand, evaluateMatchValues, PopulatedRow.lookup_obj, Option.map_some]
  exact congrFun List.filterMap_eq_map' _

theorem evaluate_values_fields (values : MatchValues) (op : MatchOp) :
    evaluateOperand (collectMatchValueFields row.obj) (op, .list values) =
      (collectMatchValuesFields values).map fun field =>
        compareFieldList (row.field field.1) field.2 op := by
  simp only [evaluateOperand, evaluateMatchValueLists, PopulatedRow.lookup_obj, Option.map_some]
  exact congrFun List.filterMap_eq_map' _

theorem traversal_decides {Field : Type} {fields : List Field} {body : Field → Except Failure Expr}
    {outcome : Field → Bool} (built : fields.mapM body = .ok conditions)
    (each : ∀ field ∈ fields, ∀ condition, body field = .ok condition →
      Decides dialect tables scope condition (outcome field)) :
    List.Forall₂ (Decides dialect tables scope) conditions (fields.map outcome) := by
  have visited := (List.forall₂_and_left _ _).mpr ⟨fun _ member => member, mapM_ok built⟩
  rw [List.forall₂_map_right_iff]
  exact visited.flip.imp fun condition field found => each field found.1 condition found.2

variable {allowText : Bool}

theorem value_operand_decides (shown : Shows scope row) {values : MatchValue} {op : MatchOp}
    (built : buildMatchValueExpressions values op allowText = .ok conditions) :
    List.Forall₂ (Decides dialect tables scope) conditions
      (evaluateOperand (collectMatchValueFields row.obj) (op, .value values)) := by
  rw [evaluate_value_fields]
  refine traversal_decides built fun field member condition returned => ?_
  obtain ⟨value, same⟩ := value_field member
  have compared := compare_fields field.1.kind (row field.1) value
  have read := eval_column dialect tables shown field.1
  simp only at returned
  split at returned
  · cases returned
  · cases op <;> cases returned <;>
      simp only [Decides, Expr.eval, read, same, PopulatedRow.field, compared, Value.truth_of_truth,
        MatchOp.ofComparison]

variable {kind : Column.Kind}

variable {listed : OneOrMany kind.Domain}

variable {condition : Expr}

theorem in_decides {value : kind.Domain} (negate : Bool)
    (read : column.eval dialect tables [scope] scope = (kind.field value).toValue)
    (built : buildInExpression column (convertOneOrMany listed kind.field) negate = .ok condition) :
    Decides dialect tables scope condition
      (compareFieldList (kind.field value) (convertOneOrMany listed kind.field)
        (if negate then .notIn else .in_)) := by
  cases listed with
  | one member => cases built
  | many members =>
    simp only [convertOneOrMany, buildInExpression] at built
    split at built
    · cases built
    · have found := in_truth_fields kind value members
      cases negate <;> cases built <;>
        simp only [Decides, Expr.eval, read, found, Value.truth_of_truth, not_truth_some]
      · rfl
      · simp [compareFieldList, convertOneOrMany, List.any_eq_not_all_not]

def OneOrMany.toList {Elem : Type} : OneOrMany Elem → List Elem
  | .one value => [value]
  | .many values => values

theorem convert_to_list {Elem : Type} (listed : OneOrMany Elem) (mapper : Elem → FieldValue) :
    (convertOneOrMany listed mapper).toList = listed.toList.map mapper := by
  cases listed <;> rfl

/-- A column with a pattern LIKE takes verbatim holds texts, and the patterns are texts. -/
theorem plain_patterns (value : kind.Domain) (nonempty : listed.toList ≠ [])
    (plain : ∀ pattern ∈ (convertOneOrMany listed kind.field).toList,
      pattern.PlainPattern caseSensitive) :
    (∃ text, kind.field value = .string text) ∧
      ∃ patterns : List String,
        (convertOneOrMany listed kind.field).toList = patterns.map .string ∧
        ∀ pattern ∈ patterns, Plain caseSensitive pattern.toList := by
  rw [convert_to_list] at plain ⊢
  have eachPlain : ∀ pattern ∈ listed.toList, (kind.field pattern).PlainPattern caseSensitive :=
    List.forall_mem_map.mp plain
  obtain ⟨first, member⟩ := List.exists_mem_of_ne_nil _ nonempty
  cases kind with
  | int | float => exact (eachPlain first member).elim
  | string => exact ⟨⟨value, rfl⟩, listed.toList, rfl, eachPlain⟩

theorem build_like_strings {values : FieldValues} {patterns : List String}
    {kind : LikeKind} {negate : Bool} (strings : values.toList = patterns.map .string) :
    buildLikeExpression floats column values kind negate =
      if negate then
        combineAnd (patterns.map fun pattern => .notLike column (kind.makePattern pattern))
      else combineOr (patterns.map fun pattern => .like column (kind.makePattern pattern)) := by
  cases values with
  | single value =>
    obtain ⟨pattern, rfl, rfl⟩ := List.map_eq_singleton_iff.mp strings.symm
    cases negate <;> rfl
  | many values =>
    cases strings
    cases negate <;> simp [buildLikeExpression, Function.comp_def, FieldValue.toStringValue]

theorem pattern_decides {value : kind.Domain} {op : MatchOp} {like : LikeKind} {negate : Bool}
    (pattern : op.pattern? = some (like, negate))
    (read : column.eval dialect tables [scope] scope = (kind.field value).toValue)
    (plain : ∀ pattern ∈ (convertOneOrMany listed kind.field).toList,
      pattern.PlainPattern dialect.caseSensitiveLike)
    (built : buildLikeExpression floats column (convertOneOrMany listed kind.field) like negate =
      .ok condition) :
    Decides dialect tables scope condition
      (compareFieldList (kind.field value) (convertOneOrMany listed kind.field) op) := by
  have nonempty : listed.toList ≠ [] := by
    intro empty
    cases listed with
    | one member => cases empty
    | many members =>
      cases empty
      cases negate <;> cases built
  obtain ⟨⟨text, isText⟩, patterns, strings, verbatim⟩ :=
    plain_patterns value nonempty plain
  rw [isText] at read ⊢
  rw [compare_pattern pattern text strings]
  rw [build_like_strings strings] at built
  cases negate with
  | false =>
    refine combine_or_decides ?_ built
    rw [List.forall₂_map_left_iff, List.forall₂_map_right_iff, List.forall₂_same]
    exact fun pattern member => like_decides false read (verbatim pattern member)
  | true =>
    refine combine_and_decides ?_ built
    rw [List.forall₂_map_left_iff, List.forall₂_map_right_iff, List.forall₂_same]
    exact fun pattern member => like_decides true read (verbatim pattern member)

theorem values_operand_decides (shown : Shows scope row) {values : MatchValues} {op : MatchOp}
    (plain : Operand.PlainPatterns dialect.caseSensitiveLike (op, .list values))
    (built : buildMatchValuesExpressions floats values op allowText = .ok conditions) :
    List.Forall₂ (Decides dialect tables scope) conditions
      (evaluateOperand (collectMatchValueFields row.obj) (op, .list values)) := by
  rw [evaluate_values_fields]
  refine traversal_decides built fun field member condition returned => ?_
  obtain ⟨listed, same⟩ := values_field member
  have read := eval_column dialect tables shown field.1
  have verbatim : op.pattern?.isSome = true → ∀ pattern ∈
      (convertOneOrMany listed field.1.kind.field).toList,
      pattern.PlainPattern dialect.caseSensitiveLike :=
    fun isPattern => same ▸ plain isPattern field member
  simp only [same] at returned
  rw [same]
  split at returned
  · cases returned
  · cases op <;> simp only at returned
    case in_ => exact in_decides false read returned
    case notIn => exact in_decides true read returned
    case startsWith => exact pattern_decides rfl read (verbatim rfl) returned
    case notStartsWith => exact pattern_decides rfl read (verbatim rfl) returned
    case endsWith => exact pattern_decides rfl read (verbatim rfl) returned
    case notEndsWith => exact pattern_decides rfl read (verbatim rfl) returned
    case contains => exact pattern_decides rfl read (verbatim rfl) returned
    case notContains => exact pattern_decides rfl read (verbatim rfl) returned
    all_goals cases returned

theorem operand_decides (shown : Shows scope row) {entry : MatchOp × Operand}
    (plain : Operand.PlainPatterns dialect.caseSensitiveLike entry)
    (built : buildOperand floats allowText entry = .ok conditions) :
    List.Forall₂ (Decides dialect tables scope) conditions
      (evaluateOperand (collectMatchValueFields row.obj) entry) := by
  rcases entry with ⟨op, values | values⟩
  · exact value_operand_decides shown built
  · exact values_operand_decides shown plain built

theorem ops_decides (shown : Shows scope row) {ops : MatchOps}
    (plain : ∀ entry ∈ ops.operands, Operand.PlainPatterns dialect.caseSensitiveLike entry)
    (built : buildMatchOpsExpression floats ops allowText = .ok condition) : Decides dialect tables scope condition
      (evaluateMatchOps ops (collectMatchValueFields row.obj)) := by
  obtain ⟨parts, visited, combined⟩ := bind_ok built
  split at combined
  · cases combined
  have each : List.Forall₂ (List.Forall₂ (Decides dialect tables scope)) parts
      (ops.operands.map (evaluateOperand (collectMatchValueFields row.obj))) := by
    rw [List.forall₂_map_right_iff]
    have found := (List.forall₂_and_left _ _).mpr ⟨plain, mapM_ok visited⟩
    exact found.flip.imp fun conditions entry found => operand_decides shown found.1 found.2
  have decided := combine_and_decides (List.rel_flatten each) combined
  unfold evaluateMatchOps
  rw [← List.flatMap_def] at decided
  simp only
  split
  · rename_i empty
    rw [List.isEmpty_iff.mp empty] at decided
    exact decided
  · exact decided

/-- The compiled condition and the in-memory filter agree on a populated row. -/
theorem match_decides (shown : Shows scope row) {filter : Match}
    (plain : filter.PlainPatterns dialect.caseSensitiveLike)
    (built : buildMatchesExpression floats filter.match_ allowText = .ok condition) :
    Decides dialect tables scope condition (evaluateMatch filter row.obj) := by
  have several : ∀ (operands : List MatchOps) (conditions : List Expr),
      (∀ ops ∈ operands, ∀ entry ∈ ops.operands,
        Operand.PlainPatterns dialect.caseSensitiveLike entry) →
      operands.mapM (fun ops => buildMatchOpsExpression floats ops allowText) = .ok conditions →
      List.Forall₂ (Decides dialect tables scope) conditions
        (operands.map fun ops => evaluateMatchOps ops (collectMatchValueFields row.obj)) :=
    fun operands conditions plain visited =>
      traversal_decides visited fun ops member _ returned =>
        ops_decides shown (plain ops member) returned
  rcases filter with ⟨operands | operands | operand | operand⟩
  · obtain ⟨conditions, visited, combined⟩ := bind_ok built
    have decided := combine_and_decides (several operands conditions plain visited) combined
    rwa [List.all_map] at decided
  · obtain ⟨conditions, visited, combined⟩ := bind_ok built
    have decided := combine_or_decides (several operands conditions plain visited) combined
    rwa [List.any_map] at decided
  · obtain ⟨inner, returned, negated⟩ := bind_ok built
    cases negated
    have decided : Decides dialect tables scope inner _ :=
      ops_decides shown (plain operand (List.mem_singleton_self _)) returned
    unfold Decides at decided ⊢
    simp only [Expr.eval, decided, Value.truth_of_truth, not_truth_some]
    rfl
  · exact ops_decides shown (plain operand (List.mem_singleton_self _)) built

end Agreement

section Divergence

variable {floats : FloatText} {dialect : Dialect} {tables : Tables}

theorem like_make_lookalike (caseSensitive : Bool) (pattern : String) :
    like caseSensitive (kind.makePattern pattern)
      (String.ofList (lookalike caseSensitive pattern.toList)) = true := by
  have closed : likeChars caseSensitive pattern.toList (lookalike caseSensitive pattern.toList) =
      true := by
    have whole := like_chars_lookalike caseSensitive pattern.toList [] [] rfl
    rwa [List.append_nil, List.append_nil] at whole
  have opened : likeChars caseSensitive (pattern.toList ++ ['%'])
      (lookalike caseSensitive pattern.toList) = true := by
    have whole := like_chars_lookalike caseSensitive pattern.toList ['%'] [] like_chars_all
    rwa [List.append_nil] at whole
  simp only [like, LikeKind.makePattern, String.toList_ofList]
  cases kind with
  | startsWith =>
    rw [String.toList_append]
    exact opened
  | endsWith =>
    rw [String.toList_append]
    exact like_chars_any.mpr ⟨[], _, rfl, closed⟩
  | contains =>
    rw [String.toList_append, String.toList_append, List.append_assoc]
    exact like_chars_any.mpr ⟨[], _, rfl, opened⟩

theorem infix_of_check {kind : LikeKind} {text pattern : String}
    (checked : kind.check text pattern = true) : pattern.toList <:+: text.toList := by
  cases kind with
  | startsWith => exact (of_decide_eq_true checked : _ <+: _).isInfix
  | endsWith => exact (of_decide_eq_true checked : _ <:+ _).isInfix
  | contains => exact of_decide_eq_true checked

theorem check_of_length_le {kind : LikeKind} {text pattern : String}
    (long : text.toList.length ≤ pattern.toList.length)
    (checked : kind.check text pattern = true) : pattern.toList = text.toList :=
  (infix_of_check checked).eq_of_length_le long

theorem int_text_nonempty (number : Int) : 1 ≤ (toString number).toList.length := by
  rw [Int.toString_eq_repr, Int.repr_eq_if]
  split
  · exact Nat.length_repr_pos
  · simp

theorem exists_unmatched_int (number : Int) :
    ∃ other : Int, kind.check (toString other) (toString number) = false := by
  by_cases zero : (toString number).toList = ['0']
  · refine ⟨1, Bool.eq_false_iff.mpr fun checked => ?_⟩
    have same := check_of_length_le (by rw [zero]; decide) checked
    rw [zero] at same
    exact absurd same (by decide)
  · refine ⟨0, Bool.eq_false_iff.mpr fun checked => ?_⟩
    have single : (toString (0 : Int)).toList = ['0'] := by decide
    have same := check_of_length_le (by rw [single]; exact int_text_nonempty number) checked
    exact zero (same.trans single)

variable {op : MatchOp}

/-- A pattern that LIKE does not take verbatim, or that stands on an integer
column, separates the two readings at some value of the column. -/
theorem exists_divergent (floats : FloatText) (dialect : Dialect) (kind : Column.Kind) (notFloat : kind ≠ .float)
    (value : kind.Domain)
    (loose : ¬(kind.field value).PlainPattern dialect.caseSensitiveLike) {test : LikeKind} {negate : Bool}
    (pattern : op.pattern? = some (test, negate)) :
    ∃ (other : kind.Domain) (text : String),
      dialect.textOf (kind.field other).toValue = some text ∧
      (if negate then !like dialect.caseSensitiveLike
          (test.makePattern ((kind.field value).toStringValue floats)) text
        else like dialect.caseSensitiveLike
          (test.makePattern ((kind.field value).toStringValue floats)) text) ≠
      compareFieldList (kind.field other) (.single (kind.field value)) op := by
  cases kind with
  | float => exact absurd rfl notFloat
  | string =>
    change String at value
    have moved : lookalike dialect.caseSensitiveLike value.toList ≠ value.toList :=
      fun same => loose (lookalike_eq_iff.mp same)
    refine ⟨String.ofList (lookalike dialect.caseSensitiveLike value.toList), _, rfl, ?_⟩
    have matched := like_make_lookalike test dialect.caseSensitiveLike value
    have failed : test.check
        (String.ofList (lookalike dialect.caseSensitiveLike value.toList)) value = false := by
      refine Bool.eq_false_iff.mpr fun checked => moved ?_
      have same := check_of_length_le (by simp [lookalike]) checked
      rw [String.toList_ofList] at same
      exact same.symm
    have inMemory := @compare_pattern op test negate pattern
      (String.ofList (lookalike dialect.caseSensitiveLike value.toList))
      (.single (.string value)) [value] rfl
    change _ ≠ compareFieldList (.string _) (.single (.string value)) op
    change (if negate then !like _ (test.makePattern value) _
      else like _ (test.makePattern value) _) ≠ _
    rw [inMemory, matched]
    cases negate <;> simp [failed]
  | int =>
    change Int at value
    have rejected : ∀ other : Int,
        compareFieldList (.int other) (.single (.int value)) op = false := by
      intro other
      cases op <;> cases pattern <;> rfl
    have verbatim : ∀ other : Int,
        like dialect.caseSensitiveLike (test.makePattern (toString value)) (toString other) =
          test.check (toString other) (toString value) :=
      fun other => like_make_pattern test (plain_int_text _ value)
    cases negate with
    | false =>
      refine ⟨value, toString value, rfl, ?_⟩
      change like _ (test.makePattern (toString value)) (toString value) ≠
        compareFieldList (.int value) (.single (.int value)) op
      rw [rejected, verbatim]
      cases test <;> simp [LikeKind.check, strStartsWith, strEndsWith, strContains]
    | true =>
      obtain ⟨other, unmatched⟩ := exists_unmatched_int test value
      refine ⟨other, toString other, rfl, ?_⟩
      change (!like _ (test.makePattern (toString value)) (toString other)) ≠
        compareFieldList (.int other) (.single (.int value)) op
      rw [rejected, verbatim, unmatched]
      decide

/-- The filter is one pattern test, on one column. -/
def Match.SinglePattern (filter : Match) (op : MatchOp) (column : Column)
    (value : column.Domain) : Prop :=
  ∃ (ops : MatchOps) (values : MatchValues),
    filter.match_ = .ops ops ∧ ops.operands = [(op, .list values)] ∧ op.pattern?.isSome ∧
      collectMatchValuesFields values = [(column, .single (column.kind.field value))]

/-- The scope that reads every column of the row from its own table. -/
def PopulatedRow.scope (row : PopulatedRow) : Scope :=
  ["files", "items", "item_data", "extracted_text", "setters"].map fun table =>
    (table, (Column.collected.filter (·.home.1 = table)).map fun column =>
      (column.home.2, (row.field column).toValue))

theorem shows_scope (row : PopulatedRow) : Shows row.scope row := by
  intro column
  cases column <;> rfl

/-- Both readings accept the same rows. -/
def ReadingsAgree (dialect : Dialect) (tables : Tables) (filter : Match) (condition : Expr) : Prop :=
  ∀ (row : PopulatedRow) (scope : Scope), Shows scope row →
    (evaluateMatch filter row.obj = true ↔ condition.holds dialect tables scope = true)

variable {filter : Match}

variable {column : Column}

variable {value : column.Domain}

theorem single_plain_iff (single : filter.SinglePattern op column value) : filter.PlainPatterns caseSensitive ↔
      (column.kind.field value).PlainPattern caseSensitive := by
  obtain ⟨ops, values, isOps, operands, isPattern, fields⟩ := single
  simp [Match.PlainPatterns, isOps, Matches.parts, operands, Operand.PlainPatterns, isPattern,
    fields, FieldValues.toList]

theorem evaluate_single
    (single : filter.SinglePattern op column value) (row : PopulatedRow) : evaluateMatch filter row.obj =
      compareFieldList (row.field column) (.single (column.kind.field value)) op := by
  obtain ⟨ops, values, isOps, operands, _, fields⟩ := single
  unfold evaluateMatch
  rw [isOps]
  simp only [evaluateMatches, evaluateMatchOps, operands, List.flatMap_cons, List.flatMap_nil,
    evaluate_values_fields, fields]
  simp

theorem build_single {test : LikeKind} {negate allowText : Bool} {condition : Expr}
    (pattern : op.pattern? = some (test, negate)) (single : filter.SinglePattern op column value)
    (built : buildMatchesExpression floats filter.match_ allowText = .ok condition) : condition =
      if negate then
        .notLike column.expr (test.makePattern ((column.kind.field value).toStringValue floats))
      else .like column.expr (test.makePattern ((column.kind.field value).toStringValue floats)) := by
  obtain ⟨ops, values, isOps, operands, _, fields⟩ := single
  rw [isOps] at built
  obtain ⟨parts, visited, combined⟩ := bind_ok built
  have operand := mapM_ok visited
  rw [operands] at operand
  cases operand with
  | @cons _ conditions _ others compiled rest =>
    cases rest
    have field := mapM_ok (compiled : buildMatchValuesExpressions floats values op allowText = _)
    rw [fields] at field
    cases field with
    | @cons _ test' _ others tested rest =>
      cases rest
      cases combined
      simp only at tested
      split at tested
      · cases tested
      · cases op <;> cases pattern <;> cases tested <;> rfl

theorem single_diverges {allowText : Bool} {condition : Expr} (notFloat : column.kind ≠ .float)
    (single : filter.SinglePattern op column value)
    (loose : ¬(column.kind.field value).PlainPattern dialect.caseSensitiveLike)
    (built : buildMatchesExpression floats filter.match_ allowText = .ok condition) :
    ¬ReadingsAgree dialect tables filter condition := by
  intro agree
  obtain ⟨_, _, _, _, isPattern, _⟩ := id single
  obtain ⟨⟨test, negate⟩, pattern⟩ := Option.isSome_iff_exists.mp isPattern
  obtain ⟨other, text, read, differ⟩ := exists_divergent floats dialect
    column.kind notFloat value loose pattern
  let row : PopulatedRow := Function.update PopulatedRow.blank column other
  have shownField : row.field column = column.kind.field other := by
    exact congrArg column.kind.field (Function.update_self column other PopulatedRow.blank)
  have same := agree row row.scope (shows_scope row)
  have shown : column.expr.eval dialect tables [row.scope] row.scope =
      (column.kind.field other).toValue := by
    rw [eval_column dialect tables (shows_scope row) column, shownField]
  rw [evaluate_single single row, shownField, build_single pattern single built] at same
  refine differ ?_
  rw [Bool.eq_iff_iff, same]
  cases negate <;> simp [Expr.holds, Expr.eval, shown, likeTruth, read]

/-- The two readings of a filter agree on every populated row when LIKE takes
each of its patterns verbatim, and for a filter of one pattern only then. -/
theorem readings_agree (floats : FloatText) (dialect : Dialect) (tables : Tables) (filter : Match)
    (allowText : Bool) (condition : Expr)
    (built : buildMatchesExpression floats filter.match_ allowText = .ok condition) :
    (filter.PlainPatterns dialect.caseSensitiveLike →
      ReadingsAgree dialect tables filter condition) ∧
    ∀ (op : MatchOp) (column : Column) (value : column.Domain), column.kind ≠ .float →
      filter.SinglePattern op column value →
      (ReadingsAgree dialect tables filter condition ↔
        filter.PlainPatterns dialect.caseSensitiveLike) := by
  have sufficient : filter.PlainPatterns dialect.caseSensitiveLike →
      ReadingsAgree dialect tables filter condition := by
    intro plain row scope shown
    have decided : Decides dialect tables scope condition _ := match_decides shown plain built
    unfold Decides at decided
    simp [Expr.holds, decided]
  refine ⟨sufficient, fun op column value notFloat single => ⟨fun agree => ?_, sufficient⟩⟩
  by_contra loose
  rw [single_plain_iff single] at loose
  exact single_diverges notFloat single loose built agree

end Divergence

def pathStartsWith (front : String) : Match where
  match_ := .ops { startswith := some fun column =>
    match column with
    | .path => some (.one front)
    | _ => none }

def rowAtPath (path : String) : PopulatedRow := fun column =>
  match column with
  | .path => path
  | column => PopulatedRow.blank column

/-- In SQL `a_` is a prefix of `abc`: LIKE takes the underscore for any
character, with or without case folding. -/
theorem underscore_prefix_diverges :
    buildMatchesExpression ⟨fun _ => ""⟩ (pathStartsWith "a_").match_ true =
      .ok (.like (.column "files" "path") "a_%") ∧
    evaluateMatch (pathStartsWith "a_") (rowAtPath "abc").obj = false ∧
    Shows (rowAtPath "abc").scope (rowAtPath "abc") ∧
    (Expr.like (.column "files" "path") "a_%").holds (.bare false) (fun _ => [])
      (rowAtPath "abc").scope = true ∧
    (Expr.like (.column "files" "path") "a_%").holds (.bare true) (fun _ => [])
      (rowAtPath "abc").scope = true := by
  refine ⟨rfl, ?_, shows_scope _, ?_, ?_⟩ <;> decide

theorem path_prefix_readings :
    ReadingsAgree (.bare true) (fun _ => []) (pathStartsWith "/data/")
      (.like (.column "files" "path") "/data/%") ∧
    ¬ReadingsAgree (.bare true) (fun _ => []) (pathStartsWith "a_")
      (.like (.column "files" "path") "a_%") := by
  have single : ∀ front, (pathStartsWith front).SinglePattern .startsWith .path front :=
    fun front => ⟨_, _, rfl, rfl, rfl, rfl⟩
  constructor
  · refine (readings_agree ⟨fun _ => ""⟩ (.bare true) (fun _ => []) (pathStartsWith "/data/") true _
      rfl).1 ((single_plain_iff (single "/data/")).mpr ?_)
    exact ⟨by decide, Or.inl rfl⟩
  · intro agree
    have plain := ((readings_agree ⟨fun _ => ""⟩ (.bare true) (fun _ => []) (pathStartsWith "a_")
      true _ rfl).2 .startsWith .path "a_" (by decide) (single "a_")).mp agree
    have literal : Literal ("a_").toList := ((single_plain_iff (single "a_")).mp plain).1
    exact absurd literal (by decide)

end Panoptikon.Pql
