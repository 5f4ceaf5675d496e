import Mathlib.Algebra.BigOperators.Group.List.Basic
import Mathlib.Algebra.Order.Ring.Int
import Mathlib.Data.String.Basic

/-!
# Canonical JSON

A document is a tree whose objects list their members in the order of the text.
Decoding a text into a map and encoding the map again sorts the members by key and
keeps the last of the members with one key. `normal` is that round trip, and `size` the
bytes of a text.

Numbers and strings are leaves. The text of a number is the one the encoder prints.
-/

/-- What a tree stands for: a value, the items of an array or the members of an object. -/
inductive JsonSort
  | value
  | items
  | members

/-- JSON syntax, indexed by what it stands for. -/
inductive JsonTree : JsonSort → Type
  | null : JsonTree .value
  | bool (value : Bool) : JsonTree .value
  | number (text : String) : JsonTree .value
  | string (text : String) : JsonTree .value
  | array (items : JsonTree .items) : JsonTree .value
  | object (members : JsonTree .members) : JsonTree .value
  | nil : JsonTree .items
  | cons (head : JsonTree .value) (tail : JsonTree .items) : JsonTree .items
  | none : JsonTree .members
  | member (key : String) (value : JsonTree .value) (rest : JsonTree .members) : JsonTree .members
deriving DecidableEq

abbrev Json := JsonTree .value

namespace JsonTree

/-! ## Normal forms -/

/-- A member added to sorted members, unless they have its key. -/
def insertMember (key : String) (value : Json) : {s : JsonSort} → JsonTree s → JsonTree s
  | _, .none => .member key value .none
  | _, .member k v rest =>
    if key < k then .member key value (.member k v rest)
    else if key = k then .member k v rest
    else .member k v (insertMember key value rest)
  | _, t => t

/-- The tree with the members of every object sorted, the last one of a key kept. -/
def normal : {s : JsonSort} → JsonTree s → JsonTree s
  | _, .array items => .array items.normal
  | _, .object members => .object members.normal
  | _, .cons head tail => .cons head.normal tail.normal
  | _, .member key value rest => insertMember key value.normal rest.normal
  | _, .null => .null
  | _, .bool value => .bool value
  | _, .number text => .number text
  | _, .string text => .string text
  | _, .nil => .nil
  | _, .none => .none

/-! ## Sizes -/

/-- Bytes of a character in a string: the short escapes, the escapes by number, which
HTML's special characters get too, and UTF-8. -/
def escapedSize (c : Char) : Nat :=
  if c ∈ ['"', '\\', '\n', '\r', '\t', '\x08', '\x0c'] then 2
  else if c.toNat < 32 ∨ c ∈ ['<', '>', '&', '\u2028', '\u2029'] then 6
  else c.utf8Size

def quotedSize (text : String) : Nat := 2 + (text.toList.map escapedSize).sum

/-- Bytes of the text. An item and a member count the comma or bracket after them. -/
def size : {s : JsonSort} → JsonTree s → Nat
  | _, .null => 4
  | _, .bool value => if value then 4 else 5
  | _, .number text => text.utf8ByteSize
  | _, .string text => quotedSize text
  | _, .array items => 1 + max 1 items.size
  | _, .object members => 1 + max 1 members.size
  | _, .nil => 0
  | _, .cons head tail => head.size + 1 + tail.size
  | _, .none => 0
  | _, .member key value rest => quotedSize key + 1 + value.size + 1 + rest.size

end JsonTree
