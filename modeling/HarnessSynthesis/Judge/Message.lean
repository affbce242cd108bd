/-
# Messages to and from the judge

The judge compiles and runs a program somewhere else. It is sent the program with the number it has
for the language, and it answers with what the program and the compiler printed.
-/

import HarnessSynthesis.Json.Decoder

namespace HarnessSynthesis

open Json

/-- A program to be run. -/
structure JudgeRequest where
  languageId : Nat
  source : Text
  input : Text
  deriving DecidableEq, Repr

namespace JudgeRequest

def decoder : Decoder JudgeRequest :=
  (Shape.field "language_id" (Decoder.word 32) .required <|
    .field "source_code" Decoder.text .required <|
    .field "stdin" Decoder.text .required .done).decoder.map
  fun (languageId, source, input, ()) => ⟨languageId, source, input⟩

def encode (r : JudgeRequest) : Node :=
  .record [("language_id", .int r.languageId), ("source_code", .text r.source),
    ("stdin", .text r.input)]

end JudgeRequest

/-- What a run printed; any part may be missing. -/
structure JudgeResponse where
  output : Option Text
  errors : Option Text
  compilerOutput : Option Text
  deriving DecidableEq, Repr

namespace JudgeResponse

def decoder : Decoder JudgeResponse :=
  (Shape.field "stdout" (Decoder.nullable Decoder.text) (.default none) <|
    .field "stderr" (Decoder.nullable Decoder.text) (.default none) <|
    .field "compile_output" (Decoder.nullable Decoder.text) (.default none) .done).decoder.map
  fun (output, errors, compilerOutput, ()) => ⟨output, errors, compilerOutput⟩

def encode (r : JudgeResponse) : Node :=
  .record [("stdout", Node.ofOption .text r.output), ("stderr", Node.ofOption .text r.errors),
    ("compile_output", Node.ofOption .text r.compilerOutput)]

end JudgeResponse

end HarnessSynthesis
