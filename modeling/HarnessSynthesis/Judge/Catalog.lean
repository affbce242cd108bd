/-
# The judge's languages

A judge knows each language under a number. A catalog tells the numbers; it is read from a text or,
where there is none, it is the built-in one. A name that is no language makes the whole text
unusable, and of two entries for one language the later counts.
-/

import HarnessSynthesis.Language
import HarnessSynthesis.Judge.Message

namespace HarnessSynthesis

open Json

/-- How a judge runs one language. -/
structure LanguageConfig where
  name : Text
  version : Text
  languageId : Nat
  sourceFile : Text
  deriving DecidableEq, Repr

namespace LanguageConfig

def decoder : Decoder LanguageConfig :=
  (Shape.field "name" Decoder.text .required <|
    .field "version" Decoder.text .required <|
    .field "language_id" (Decoder.word 32) .required <|
    .field "source_file" Decoder.text .required .done).decoder.map
  fun (name, version, languageId, sourceFile, ()) => ⟨name, version, languageId, sourceFile⟩

def encode (c : LanguageConfig) : Node :=
  .record [("name", .text c.name), ("version", .text c.version), ("language_id", .int c.languageId),
    ("source_file", .text c.sourceFile)]

end LanguageConfig

/-- How a judge runs each language it knows. -/
structure Catalog where
  config? : Language → Option LanguageConfig

namespace Catalog

/-- Why there is no catalog, or nothing in it for a language. -/
inductive Error where
  | unreadable
  | malformed
  | unknownLanguage (name : Text)
  | missing (l : Language)
  deriving DecidableEq, Repr

/-- What is to be said about the contents of a catalog. -/
def Error.message? : Error → Option Text
  | .unreadable => none
  | .malformed => none
  | .unknownLanguage name => some ("unknown language '" ++ name ++ "' in language catalog" : Text)
  | .missing l => some ("no judge configuration for language: " ++ l.name : Text)

/-- A catalog without languages. -/
def empty : Catalog := ⟨fun _ => none⟩

/-- A catalog with one more language, or another configuration of it. -/
def insert (l : Language) (c : LanguageConfig) (catalog : Catalog) : Catalog :=
  ⟨fun other => if other = l then some c else catalog.config? other⟩

@[simp] theorem config?_insert_self (l : Language) (c : LanguageConfig) (catalog : Catalog) :
    (catalog.insert l c).config? l = some c := by
  simp [insert]

theorem config?_insert_of_ne {l other : Language} (c : LanguageConfig) (catalog : Catalog)
    (h : other ≠ l) : (catalog.insert l c).config? other = catalog.config? other := by
  simp [insert, h]

/-- The catalog that is used where none is given. -/
def builtin : Catalog where
  config?
    | .typescript => some ⟨"typescript", "5.0", 74, "main.ts"⟩
    | .python => some ⟨"python", "3.8", 71, "main.py"⟩
    | .java => some ⟨"java", "13", 62, "Main.java"⟩
    | .cpp => some ⟨"cpp", "17", 54, "main.cpp"⟩

/-- Configurations put into a catalog one after the other. -/
def addAll : List LanguageConfig → Catalog → Except Error Catalog
  | [], catalog => .ok catalog
  | c :: rest, catalog =>
    match Language.ofName? c.name with
    | some l => addAll rest (catalog.insert l c)
    | none => .error (.unknownLanguage c.name)

/-- The list of configurations in the text of a catalog. -/
def configsDecoder : Decoder (List LanguageConfig) :=
  (Shape.field "languages" (Decoder.list LanguageConfig.decoder) .required .done).decoder.map
  fun (configs, ()) => configs

/-- The catalog in a text. -/
def parse (t : Text) : Except Error Catalog :=
  match configsDecoder.decodeText t with
  | .ok configs => addAll configs empty
  | .error _ => .error .malformed

/-- The catalog in a file, which may be missing. -/
def ofFile (contents : Option Text) : Except Error Catalog :=
  match contents with
  | some t => parse t
  | none => .error .unreadable

/-- The catalog in a file, or the built-in one where there is no file. -/
def ofFileOrBuiltin (contents : Option Text) : Except Error Catalog :=
  match contents with
  | some t => parse t
  | none => .ok builtin

/-- The configuration of a language. -/
def config (catalog : Catalog) (l : Language) : Except Error LanguageConfig :=
  match catalog.config? l with
  | some c => .ok c
  | none => .error (.missing l)

/-- The languages of a catalog in the order of their names. -/
def languages (catalog : Catalog) : List Language :=
  (Language.all.filter fun l => (catalog.config? l).isSome).mergeSort
    fun l other => !decide (other.name < l.name)

end Catalog

end HarnessSynthesis
