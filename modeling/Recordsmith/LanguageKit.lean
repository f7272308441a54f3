import Recordsmith.Expansion.Basic
import Recordsmith.Tree.Dialect

/-! Language kits: all that is needed to expand sources of one language. -/

namespace Recordsmith

/-- All that is known about a source language: which files hold it, how its sources are read, what its trees declare
    and how members are written in it. -/
structure LanguageKit where
  language : Language
  extensions : List String
  read : List Char → Tree.SourceTree
  dialect : Tree.Dialect
  renderer : Code.Renderer

namespace LanguageKit

/-- Expands a source that has been read already. -/
def expandTree (k : LanguageKit) (source : List Char) (tree : Tree.SourceTree) (config : Config) :
    Except ExpansionError Expansion := do
  let declarations ← (k.dialect.extract source tree config.synthesis.marker).mapError .undecodable
  let treatments ← (Expansion.treatments k.renderer source config declarations).mapError .synthesis
  return Expansion.ofTreatments source treatments

/-- What expanding a source that has been read already tells. -/
def expandTreeLog (k : LanguageKit) (source : List Char) (tree : Tree.SourceTree) (config : Config) : List LogLine :=
  k.dialect.extractionLog source tree config.synthesis.marker ++
    match k.dialect.extract source tree config.synthesis.marker with
    | .error _ => []
    | .ok declarations =>
      Expansion.treatmentLog config declarations ++
        ((k.expandTree source tree config).toOption.map Expansion.summary).toList

def extract (k : LanguageKit) (source : List Char) (marker : String) :
    Except Text.Utf8.DecodeError (List Declaration) :=
  k.dialect.extract source (k.read source) marker

def expand (k : LanguageKit) (source : List Char) (config : Config) : Except ExpansionError Expansion :=
  k.expandTree source (k.read source) config

end LanguageKit

end Recordsmith
