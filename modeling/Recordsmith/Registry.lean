import Recordsmith.Code.JavaCode
import Recordsmith.Code.SwiftCode
import Recordsmith.LanguageKit
import Recordsmith.Path
import Recordsmith.Source.JavaSource
import Recordsmith.Source.SwiftSource
import Recordsmith.Text.LowerCase
import Recordsmith.Text.Quoted
import Recordsmith.Tree.JavaTree
import Recordsmith.Tree.SwiftTree

/-! The registry: which kit serves a language or a file. -/

namespace Recordsmith

def LanguageKit.swift : LanguageKit where
  language := .swift
  extensions := [".swift"]
  read := Source.SwiftSource.read
  dialect := Tree.SwiftTree.dialect
  renderer := Code.SwiftCode.renderer

def LanguageKit.java : LanguageKit where
  language := .java
  extensions := [".java"]
  read := Source.JavaSource.read
  dialect := Tree.JavaTree.dialect
  renderer := Code.JavaCode.renderer

/-- Why no kit is found or registered. -/
inductive RegistryError
  /-- No kit serves what was asked for, shown as in a message. -/
  | unsupported (shown : String) (offered : List String)
  | noKitFor (fileName : String) (offered : List String)
  /-- What was to be registered is no kit but belongs to the class of this name. -/
  | notKit (className : String)
  | unknownLanguage (text : String)
  deriving DecidableEq, Repr

def RegistryError.message : RegistryError → String
  | .unsupported shown offered =>
    "Unsupported language: " ++ shown ++ ". Supported languages: " ++ Language.listing offered
  | .noKitFor fileName offered =>
    "No language plugin for '" ++ fileName ++ "'. Supported languages: " ++ Language.listing offered
  | .notKit className => "<class '" ++ className ++ "'> must extend LanguagePlugin"
  | .unknownLanguage text => Text.quoted text ++ " is not a valid LanguageType"

/-- Something that may be offered for registration. -/
inductive Candidate
  | kit (k : LanguageKit)
  /-- A class that is no kit. -/
  | foreign (className : String)

/-- The kits in service, one for each language, in the order in which they are asked about a file. -/
structure Registry where
  kits : List (Language × LanguageKit)

namespace Registry

def initial : Registry := ⟨[(.swift, .swift), (.java, .java)]⟩

/-- The languages in service. -/
def languages (r : Registry) : List Language := r.kits.map (·.1)

def names (r : Registry) : List String := r.languages.map (·.name)

/-- The kit of a language. -/
def kit? (r : Registry) (language : Language) : Option LanguageKit :=
  (r.kits.find? (·.1 == language)).map (·.2)

/-- The kit of a language given by its exact name. -/
def get (r : Registry) (name : String) : Except RegistryError LanguageKit :=
  match (Language.ofName? name).bind r.kit? with
  | some kit => .ok kit
  | none => .error (.unsupported name r.names)

/-- The first kit in service that knows the file's extension, in any mixture of upper and lower case. -/
def forPath (r : Registry) (path : Path) : Except RegistryError LanguageKit :=
  match r.kits.find? fun entry => Text.lowerCase path.suffix ∈ entry.2.extensions with
  | some entry => .ok entry.2
  | none => .error (.noKitFor path.name r.names)

/-- The kit of the language if one is given, else that of the file, else the kit of Swift. -/
def lookup (r : Registry) (language : Option Language) (path : Option Path) : Except RegistryError LanguageKit :=
  match language, path with
  | some language, _ => r.get language.name
  | none, some path => r.forPath path
  | none, none => r.get Language.swift.name

/-- Puts a kit in the place of the language's present one. -/
def put (kit : LanguageKit) (language : Language) : List (Language × LanguageKit) → List (Language × LanguageKit)
  | [] => [(language, kit)]
  | entry :: rest => if entry.1 = language then (language, kit) :: rest else entry :: put kit language rest

def register (r : Registry) (language : Language) : Candidate → Except RegistryError Registry
  | .kit k => .ok ⟨put k language r.kits⟩
  | .foreign className => .error (.notKit className)

end Registry

end Recordsmith
