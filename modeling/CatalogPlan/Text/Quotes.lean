/-!
# The two quotes
-/

namespace CatalogPlan.Text

def singleQuote : Char := Char.ofNat 39

def doubleQuote : Char := Char.ofNat 34

end CatalogPlan.Text
