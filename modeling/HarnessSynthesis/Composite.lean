/-
# Composite structures

Some test inputs stand for linked structures: lists, trees, intervals, graphs and tries. Each kind
has a type of a fixed name, a function that builds it from plain data and one that turns it back.
-/

import HarnessSynthesis.Language

namespace HarnessSynthesis

/-- The structures that inputs can be converted to. -/
inductive Composite where
  | listNode
  | treeNode
  | interval
  | graphNode
  | trieNode
  deriving DecidableEq, Repr

namespace Composite

/-- All kinds in their fixed order. -/
def all : List Composite := [.listNode, .treeNode, .interval, .graphNode, .trieNode]

theorem mem_all (k : Composite) : k ∈ all := by cases k <;> decide

/-- The name of the type. -/
def typeName : Composite → Text
  | .listNode => "ListNode"
  | .treeNode => "TreeNode"
  | .interval => "Interval"
  | .graphNode => "GraphNode"
  | .trieNode => "TrieNode"

/-- The name in lower case with low lines between its words. -/
def snakeName : Composite → Text
  | .listNode => "list_node"
  | .treeNode => "tree_node"
  | .interval => "interval"
  | .graphNode => "graph_node"
  | .trieNode => "trie_node"

/-- The kind whose type has a name, blanks around it not counting. -/
def ofName? (name : Text) : Option Composite :=
  all.find? fun k => k.typeName = name.trim

/-- The function that builds the structure from plain data. -/
def parserName (l : Language) (k : Composite) : Text :=
  if l = .python then "parse_" ++ k.snakeName else "parse" ++ k.typeName

/-- The function that turns the structure back into plain data. -/
def serializerName (l : Language) (k : Composite) : Text :=
  if l = .python then "serialize_" ++ k.snakeName else "serialize" ++ k.typeName

/-- The type as a value in C++: intervals are plain values and the linked kinds are pointers. -/
def cppType (k : Composite) : Text :=
  if k = .interval then k.typeName else k.typeName ++ ['*']

end Composite

end HarnessSynthesis
