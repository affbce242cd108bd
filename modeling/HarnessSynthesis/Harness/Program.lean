/-
# Programs

The programs that can be made of a request, whatever its language, and the function that they call.
-/

import HarnessSynthesis.Harness.Cpp
import HarnessSynthesis.Harness.Java
import HarnessSynthesis.Harness.Python
import HarnessSynthesis.Harness.Typescript
import HarnessSynthesis.Request

namespace HarnessSynthesis

namespace Plan

/-- The program that runs the cases of a plan. -/
def testHarness (p : Plan) : Text :=
  match p.language with
  | .typescript => Harness.Typescript.testHarness p
  | .python => Harness.Python.testHarness p
  | .java => Harness.Java.testHarness p
  | .cpp => Harness.Cpp.testHarness p

/-- The program that makes one call on arguments it reads. -/
def callProgram (p : Plan) : Text :=
  match p.language with
  | .typescript => Harness.Typescript.callProgram p
  | .python => Harness.Python.callProgram p
  | .java => Harness.Java.callProgram p
  | .cpp => Harness.Cpp.callProgram p

end Plan

namespace RunRequest

/-- The plan of a request. -/
def plan (r : RunRequest) : Plan :=
  Plan.build r.language r.source r.testCases r.schema r.entryName r.options

/-- The function that a request's harness calls. -/
def entryPoint (r : RunRequest) : EntryPoint :=
  resolve r.language r.source r.schema r.entryName

/-- The test harness of a request. -/
def program (r : RunRequest) : Text :=
  r.plan.testHarness

end RunRequest

namespace CallRequest

/-- The function that a request's program calls. -/
def entryPoint (r : CallRequest) : EntryPoint :=
  resolve r.language r.source r.schema r.entryName

/-- The call program of a request. -/
def program (r : CallRequest) : Text :=
  (Plan.build r.language r.source [] r.schema r.entryName r.options).callProgram

end CallRequest

namespace ResolveRequest

/-- The function that a program would call. -/
def entryPoint (r : ResolveRequest) : EntryPoint :=
  resolve r.language r.source r.schema r.entryName

/-- That function and everything it was chosen from. -/
def answer (r : ResolveRequest) : Json.Node :=
  .record [("entry", r.entryPoint.encode),
    ("candidates", .array ((findCandidates r.language r.source).map Candidate.encode))]

end ResolveRequest

end HarnessSynthesis
