import GuardedFlow.Condition.Basic

/-!
# Equal trees

Trees are equal if they have the same shape and the same leaves, where numbers are compared by their
value: the two zeros are equal, and NaN differs from itself.
-/

namespace GuardedFlow

namespace Operand

mutual

/-- Whether two operands are equal. -/
def equals : Operand → Operand → Bool
  | var a, var b => a == b
  | literal v, literal w => v.equals w
  | null, null => true
  | binary l op r, binary l' op' r' => l.equals l' && op == op' && r.equals r'
  | unary op o, unary op' o' => op == op' && o.equals o'
  | call name args, call name' args' => name == name' && allEqual args args'
  | list items, list items' => allEqual items items'
  | _, _ => false
termination_by structural o => o

def allEqual : List Operand → List Operand → Bool
  | [], [] => true
  | o :: os, o' :: os' => o.equals o' && allEqual os os'
  | _, _ => false
termination_by structural l => l

end

/-- Whether two sides that may be missing are equal. -/
def sidesEqual : Option Operand → Option Operand → Bool
  | none, none => true
  | some o, some o' => o.equals o'
  | _, _ => false

mutual

theorem mentionsVariable_of_equals :
    ∀ {o o' : Operand}, o.equals o' = true → o'.mentionsVariable = o.mentionsVariable
  | var _, o', h => by
    cases o' <;> first | rfl | cases h
  | literal _, o', h | null, o', h => by
    cases o' <;> first | rfl | cases h
  | binary l op r, o', h => by
    cases o' with
    | binary l' op' r' =>
      rw [equals, Bool.and_eq_true, Bool.and_eq_true] at h
      rw [mentionsVariable, mentionsVariable, mentionsVariable_of_equals h.1.1,
        mentionsVariable_of_equals h.2]
    | _ => cases h
  | unary op o, o', h => by
    cases o' with
    | unary op' o' =>
      rw [equals, Bool.and_eq_true] at h
      rw [mentionsVariable, mentionsVariable, mentionsVariable_of_equals h.2]
    | _ => cases h
  | call name args, o', h => by
    cases o' with
    | call name' args' =>
      rw [equals, Bool.and_eq_true] at h
      rw [mentionsVariable, mentionsVariable, anyMentionsVariable_of_allEqual h.2]
    | _ => cases h
  | list items, o', h => by
    cases o' with
    | list items' => rw [mentionsVariable, mentionsVariable, anyMentionsVariable_of_allEqual h]
    | _ => cases h

theorem anyMentionsVariable_of_allEqual :
    ∀ {os os' : List Operand}, allEqual os os' = true →
      anyMentionsVariable os' = anyMentionsVariable os
  | [], os', h => by
    cases os' with
    | nil => rfl
    | cons => cases h
  | o :: os, os', h => by
    cases os' with
    | nil => cases h
    | cons o' os' =>
      rw [allEqual, Bool.and_eq_true] at h
      rw [anyMentionsVariable, anyMentionsVariable, mentionsVariable_of_equals h.1,
        anyMentionsVariable_of_allEqual h.2]

end

theorem length_eq_of_allEqual {os os' : List Operand} (h : allEqual os os' = true) :
    os'.length = os.length := by
  induction os generalizing os' with
  | nil =>
    cases os' with
    | nil => rfl
    | cons => cases h
  | cons o os ih =>
    cases os' with
    | nil => cases h
    | cons o' os' =>
      rw [allEqual, Bool.and_eq_true] at h
      rw [List.length_cons, List.length_cons, ih h.2]

theorem eq_null_of_equals {o : Operand} (h : o.equals null = true) : o = null := by
  cases o <;> first | rfl | cases h

theorem eq_number_of_equals {o : Operand} {x : Number}
    (h : o.equals (.literal (.number x)) = true) :
    ∃ y, o = .literal (.number y) := by
  cases o with
  | literal v =>
    cases v with
    | number y => exact ⟨y, rfl⟩
    | _ => cases h
  | _ => cases h

end Operand

namespace Condition

mutual

/-- Whether two conditions are equal. -/
def equals : Condition → Condition → Bool
  | group children closed, group children' closed' =>
    allEqual children children' && closed == closed'
  | logical op left right closed, logical op' left' right' closed' =>
    op == op' && sidesEqual left left' && sidesEqual right right' && closed == closed'
  | comparison left op right, comparison left' op' right' =>
    left.equals left' && op == op' && Operand.sidesEqual right right'
  | set left op values closed, set left' op' values' closed' =>
    left.equals left' && op == op' && Operand.allEqual values values' && closed == closed'
  | _, _ => false
termination_by structural c => c

def allEqual : List Condition → List Condition → Bool
  | [], [] => true
  | c :: cs, c' :: cs' => c.equals c' && allEqual cs cs'
  | _, _ => false
termination_by structural l => l

def sidesEqual : Option Condition → Option Condition → Bool
  | none, none => true
  | some c, some c' => c.equals c'
  | _, _ => false
termination_by structural o => o

end

end Condition

end GuardedFlow
