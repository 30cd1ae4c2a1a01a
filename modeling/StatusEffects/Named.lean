/-!
# Named alternatives

A closed list of alternatives is written in content as capitalised identifiers (`AerialYoke`) and
shown in lower case with underscores (`aerial_yoke`).

## Main definitions

* `Named` : a type whose alternatives are listed, each with its identifier.
* `Named.name` : the shown form.
* `Named.ofIdent?`, `Named.ofName?` : the alternative an identifier or a shown form stands for.
-/

namespace StatusEffects

/-- A type of finitely many alternatives, each written as one identifier. -/
class Named (α : Type) where
  /-- The alternatives in order of declaration. -/
  all : List α
  /-- The identifier of an alternative. -/
  ident : α → String

namespace Named

/-- Capitals become lower case behind an underscore. -/
def underscored : List Char → List Char
  | [] => []
  | c :: cs => if c.isUpper then '_' :: c.toLower :: underscored cs else c :: underscored cs

/-- An identifier in lower case, its words joined by underscores. -/
def snake (ident : String) : String :=
  String.ofList ((underscored ident.toList).dropWhile (· = '_'))

variable {α : Type} [Named α]

/-- The form an alternative is shown in. -/
def name (a : α) : String := snake (ident a)

/-- The alternative with exactly this identifier. -/
def ofIdent? (text : String) : Option α := all.find? fun a => ident a == text

/-- The alternative with this shown form; the case of the letters `A` to `Z` does not count. -/
def ofName? (text : String) : Option α := all.find? fun a => name a == text.map Char.toLower

end Named

end StatusEffects
