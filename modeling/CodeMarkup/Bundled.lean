import CodeMarkup.Bundled.Bash
import CodeMarkup.Bundled.Ini
import CodeMarkup.Bundled.Json
import CodeMarkup.Bundled.Xml
import CodeMarkup.Registry

/-! # Bundled languages -/

namespace CodeMarkup.Bundled

/-- The bundled languages with their names, in the order in which they are registered. -/
def grammars : List (String × Grammar) :=
  [("plaintext", { Grammar.plaintext with aliases := ["text", "txt"] }), ("json", json),
    ("ini", ini), ("bash", bash), ("xml", xml)]

/-- The names of the bundled languages. -/
def names : List String := grammars.map Prod.fst

/-- Registers grammars one after the other. -/
def registerAll {ρ : Type} [Engine ρ] :
    List (String × Grammar) → Registry ρ → Except Problem (Registry ρ)
  | [], r => .ok r
  | (name, g) :: gs, r =>
    match r.register name g with
    | .error p => .error p
    | .ok r => registerAll gs r

/-- Registers the bundled languages. -/
def register {ρ : Type} [Engine ρ] (r : Registry ρ) : Except Problem (Registry ρ) :=
  registerAll grammars r

end CodeMarkup.Bundled
