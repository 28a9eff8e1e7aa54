/-
# Cached values

What a page cache keeps in a store: the messages of a language, and rendered pages.
-/
import ConstStore.Codec

namespace ConstStore

/-- The translated texts of one language: pairs of a name and a text. -/
structure Message where
  lang : String
  strings : List (String × String)
  deriving Repr, DecidableEq

/-- A rendered page with the numbers of the pages that it links to. -/
structure Rendered where
  title : String
  html : String
  links : List UInt32
  deriving Repr, DecidableEq

namespace Codec

def message : Codec Message :=
  (pair string (list (pair string string))).map
    (fun (lang, strings) => ⟨lang, strings⟩) (fun m => (m.lang, m.strings))

def rendered : Codec Rendered :=
  (pair string (pair string (list u32))).map
    (fun (title, html, links) => ⟨title, html, links⟩) (fun r => (r.title, r.html, r.links))

end Codec
end ConstStore
