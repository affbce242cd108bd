/-
# The catalogue of fragments

Every structure has its fragments in every language, and every language its runtime.
-/

import HarnessSynthesis.Composite
import HarnessSynthesis.Fragments.Typescript
import HarnessSynthesis.Fragments.Python
import HarnessSynthesis.Fragments.Java
import HarnessSynthesis.Fragments.Cpp

namespace HarnessSynthesis

namespace Composite

/-- The fragments of a structure in a language. -/
def fragments (l : Language) (k : Composite) : Fragments :=
  match l, k with
  | .typescript, .listNode => Fragments.Typescript.listNode
  | .typescript, .treeNode => Fragments.Typescript.treeNode
  | .typescript, .interval => Fragments.Typescript.interval
  | .typescript, .graphNode => Fragments.Typescript.graphNode
  | .typescript, .trieNode => Fragments.Typescript.trieNode
  | .python, .listNode => Fragments.Python.listNode
  | .python, .treeNode => Fragments.Python.treeNode
  | .python, .interval => Fragments.Python.interval
  | .python, .graphNode => Fragments.Python.graphNode
  | .python, .trieNode => Fragments.Python.trieNode
  | .java, .listNode => Fragments.Java.listNode
  | .java, .treeNode => Fragments.Java.treeNode
  | .java, .interval => Fragments.Java.interval
  | .java, .graphNode => Fragments.Java.graphNode
  | .java, .trieNode => Fragments.Java.trieNode
  | .cpp, .listNode => Fragments.Cpp.listNode
  | .cpp, .treeNode => Fragments.Cpp.treeNode
  | .cpp, .interval => Fragments.Cpp.interval
  | .cpp, .graphNode => Fragments.Cpp.graphNode
  | .cpp, .trieNode => Fragments.Cpp.trieNode

end Composite

namespace Language

/-- What every program of a language carries; in C++, the half in front of the overloads for
structures. -/
def runtime : Language → Text
  | .typescript => Fragments.Typescript.runtime
  | .python => Fragments.Python.runtime
  | .java => Fragments.Java.runtime
  | .cpp => Fragments.Cpp.runtime

end Language

end HarnessSynthesis
