/-
**The JSON documents `tiny-json` hands out, as the state object reads them.**

A document is a tree of nodes; the nodes of one object or one array are chained by their sibling
pointers.  A pointer to a node is modelled by the chain that starts there, the node first and its
later siblings after it, and the null pointer by the empty chain.  Every call that follows a
pointer is kept, with the pointer it was given, so that following a null pointer can be seen.

Main definitions:

* `TwinThing.Json`, `TwinThing.Node` — documents, and pointers into them;
* `TwinThing.getProperty` — the first member of a given name;
* `TwinThing.ApiCall` — a call of one of the functions that dereference their argument.
-/

import Mathlib.Data.List.Infix

set_option relaxedAutoImplicit false
set_option autoImplicit false

namespace TwinThing

/-- A JSON value, by the types of `tiny-json`.  Integers are what `json_getInteger` returns, and
reals stay text. -/
inductive Json
  | obj (members : List (String × Json))
  | array (elems : List Json)
  | text (s : String)
  | boolean (b : Bool)
  | integer (i : Int64)
  | real (digits : String)
  | null

/-- A pointer to a node: the node and its later siblings, or nothing for the null pointer. -/
abbrev Node := List Json

/-- A pointer to the first member of that name, null when there is none. -/
def getProperty (members : List (String × Json)) (name : String) : Node :=
  (members.dropWhile fun m => m.1 ≠ name).map Prod.snd

/-- The functions that follow the pointer they are given. -/
inductive ApiFn
  | getType
  | getBoolean
  | getChild
  | getInteger
  | getSibling
  deriving DecidableEq, Repr

/-- One call of such a function. -/
structure ApiCall where
  fn : ApiFn
  arg : Node

/-- The call does not follow a null pointer. -/
def ApiCall.Safe (c : ApiCall) : Prop := c.arg ≠ []

/-- The value of the first member of that name. -/
def firstNamed (members : List (String × Json)) (name : String) : Option Json :=
  (members.find? fun m => m.1 = name).map Prod.snd

/-- The pointer `getProperty` returns points at the first member of that name. -/
theorem head?_getProperty (members : List (String × Json)) (name : String) :
    (getProperty members name).head? = firstNamed members name := by
  induction members with
  | nil => rfl
  | cons m members ih =>
      by_cases h : m.1 = name
      · simp [getProperty, firstNamed, h]
      · simpa [getProperty, firstNamed, h] using ih

theorem getProperty_eq_nil {members : List (String × Json)} {name : String}
    (h : firstNamed members name = none) : getProperty members name = [] := by
  rwa [← head?_getProperty, List.head?_eq_none_iff] at h

theorem getProperty_eq_cons {members : List (String × Json)} {name : String} {v : Json}
    (h : firstNamed members name = some v) : ∃ rest, getProperty members name = v :: rest := by
  rw [← head?_getProperty, List.head?_eq_some_iff] at h
  exact h

end TwinThing
