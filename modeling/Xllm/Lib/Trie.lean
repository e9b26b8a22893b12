import Mathlib.Data.List.Basic

/-!
# Tries

A node holds a value and a child for each symbol that leads on. `find_insert` is what an insertion
does, and the only fact about insertion that a reader of the trie needs.
-/

namespace Xllm.Lib

/-- A trie over symbols `α` with values `β`. -/
inductive Trie (α β : Type) where
  | node (value : Option β) (children : List (α × Trie α β))

namespace Trie

variable {α β : Type}

def empty : Trie α β := .node none []

def value : Trie α β → Option β
  | .node value _ => value

def setValue (value : β) : Trie α β → Trie α β
  | .node _ children => .node (some value) children

def setChild : Trie α β → α → Trie α β → Trie α β
  | .node value children, symbol, subtrie => .node value ((symbol, subtrie) :: children)

@[simp] theorem value_empty : (empty : Trie α β).value = none := rfl

@[simp] theorem value_setValue (value : β) (trie : Trie α β) :
    (trie.setValue value).value = some value := by
  cases trie
  rfl

@[simp] theorem value_setChild (trie subtrie : Trie α β) (symbol : α) :
    (trie.setChild symbol subtrie).value = trie.value := by
  cases trie
  rfl

variable [DecidableEq α]

def child : Trie α β → α → Option (Trie α β)
  | .node _ children, symbol =>
    (children.find? fun entry => decide (entry.1 = symbol)).map Prod.snd

/-- The value of a key is set. Nodes on the way that are missing are made. -/
def insert : List α → β → Trie α β → Trie α β
  | [], value, trie => trie.setValue value
  | symbol :: key, value, trie =>
    trie.setChild symbol (insert key value ((trie.child symbol).getD empty))

def find : Trie α β → List α → Option β
  | trie, [] => trie.value
  | trie, symbol :: key => (trie.child symbol).bind fun subtrie => subtrie.find key

@[simp] theorem child_empty (symbol : α) : (empty : Trie α β).child symbol = none := rfl

@[simp] theorem child_setValue (value : β) (trie : Trie α β) (symbol : α) :
    (trie.setValue value).child symbol = trie.child symbol := by
  cases trie
  rfl

theorem child_setChild (trie subtrie : Trie α β) (symbol other : α) :
    (trie.setChild symbol subtrie).child other =
      if other = symbol then some subtrie else trie.child other := by
  cases trie with
  | node value children =>
    simp only [setChild, child]
    by_cases hother : other = symbol
    · rw [if_pos hother, hother, List.find?_cons_of_pos (by simp)]
      rfl
    · rw [if_neg hother, List.find?_cons_of_neg (by simpa using Ne.symm hother)]

@[simp] theorem find_nil (trie : Trie α β) : trie.find [] = trie.value := by
  rfl

theorem find_cons (trie : Trie α β) (symbol : α) (key : List α) :
    trie.find (symbol :: key) = (trie.child symbol).bind fun subtrie => subtrie.find key := by
  rw [find]

theorem find_empty (key : List α) : (empty : Trie α β).find key = none := by
  cases key with
  | nil => simp
  | cons symbol key => rw [find_cons, child_empty, Option.bind_none]

theorem find_getD (child : Option (Trie α β)) (key : List α) :
    (child.getD empty).find key = child.bind fun subtrie => subtrie.find key := by
  cases child with
  | none => exact find_empty key
  | some subtrie => rfl

theorem find_insert (key other : List α) (value : β) (trie : Trie α β) :
    (trie.insert key value).find other = if other = key then some value else trie.find other := by
  induction key generalizing other trie with
  | nil =>
    rw [insert]
    cases other with
    | nil => simp
    | cons symbol other => simp [find_cons]
  | cons symbol key ih =>
    rw [insert]
    cases other with
    | nil => simp
    | cons symbol' other =>
      rw [find_cons, child_setChild]
      by_cases hsymbol : symbol' = symbol
      · rw [if_pos hsymbol, Option.bind_some, ih, find_getD, find_cons, hsymbol]
        simp
      · rw [if_neg hsymbol, if_neg (by simp [hsymbol]), find_cons]

end Trie

end Xllm.Lib
