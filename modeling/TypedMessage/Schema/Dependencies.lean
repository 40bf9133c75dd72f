import TypedMessage.Schema.Basic

/- The structs that a struct leads to through the types of its fields. The search
   keeps the entries that are not reached yet and the names still to visit; a
   struct leaves the entries on its first visit, so cycles end. -/
namespace TypedMessage.Schema

/-- The base types of a struct's fields. -/
def bases (fields : List Field) : List String := fields.map fun f => FieldType.base f.type

/-- The entries of all names but `n`. -/
def without (n : String) (es : List (String × List Field)) : List (String × List Field) :=
  es.filter (·.1 ≠ n)

theorem length_without_lt {es : List (String × List Field)} {n : String} {fields : List Field}
    (h : findEntry n es = some fields) : (without n es).length < es.length := by
  refine List.length_filter_lt_length_iff_exists.2 ⟨(n, fields), mem_of_findEntry h, ?_⟩
  simp

/-- The entries that none of the pending names leads to. -/
def unreached (left : List (String × List Field)) (pending : List String) :
    List (String × List Field) :=
  match pending with
  | [] => left
  | n :: more =>
    match _h : findEntry n left with
    | none => unreached left more
    | some fields => unreached (without n left) (bases fields ++ more)
termination_by (left.length, pending.length)
decreasing_by
  · exact Prod.Lex.right _ (by simp)
  · exact Prod.Lex.left _ _ (length_without_lt ‹_›)

/-- The defined structs that `anchor` leads to, itself included. -/
def dependencies (s : Schema) (anchor : String) : Schema :=
  let left := unreached s.entries [anchor]
  s.restrict fun n => (findEntry n left).isNone

end TypedMessage.Schema
