import Headend.Text.Replace

/-!
# Templates

A path or an expression of the configuration may name the card, the tuner and the server. The names
are replaced one after the other, each by a decimal number.
-/

namespace Headend.Config

/-- The numbers that a template may name. -/
structure TemplateValues where
  card : UInt32
  tuner : UInt32
  server : Int

namespace TemplateValues

/-- The name of the card in a template. -/
def cardToken : List Char := ['%', 'c', 'a', 'r', 'd']

/-- The name of the tuner in a template. -/
def tunerToken : List Char := ['%', 't', 'u', 'n', 'e', 'r']

/-- The name of the server in a template. -/
def serverToken : List Char := ['%', 's', 'e', 'r', 'v', 'e', 'r']

/-- The three names with the text of their values, in the order in which they are replaced. -/
def bindings (v : TemplateValues) : List (List Char × List Char) :=
  [(cardToken, (toString v.card.toNat).toList), (tunerToken, (toString v.tuner.toNat).toList),
   (serverToken, (toString v.server).toList)]

/-- A template with every name replaced. -/
def expandText (v : TemplateValues) (template : List Char) : List Char :=
  v.bindings.foldl (fun cs b => Text.replace cs b.1 b.2) template

/-- A template with every name replaced. -/
def expand (v : TemplateValues) (template : String) : String :=
  String.ofList (v.expandText template.toList)

end TemplateValues

end Headend.Config
