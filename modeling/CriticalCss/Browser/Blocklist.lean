import CriticalCss.Text.Letter

/-!
# Blocked requests

A page does not make requests whose address contains a blocked text.
-/

namespace CriticalCss

/-- Texts that no requested address may contain. -/
structure Blocklist where
  patterns : List String
deriving DecidableEq

namespace Blocklist

/-- A list of texts; the empty text blocks nothing and is left out. -/
def ofList (patterns : List String) : Blocklist :=
  ⟨patterns.filter (· ≠ "")⟩

/-- Nothing is blocked. -/
def allowAll : Blocklist := ⟨[]⟩

/-- Maps, analytics and advertisements. -/
def standard : Blocklist :=
  ofList ["maps.gstatic.com", "maps.googleapis.com", "googletagmanager.com",
    "google-analytics.com", "google.", "googleadservices.com", "generaltracking.de", "bing.com",
    "doubleclick.net"]

/-- Whether a request is blocked. -/
def blocks (b : Blocklist) (url : String) : Bool :=
  b.patterns.any fun p => Text.contains url.toList p.toList

/-- Whether a request may be made. -/
def allows (b : Blocklist) (url : String) : Bool :=
  !b.blocks url

end Blocklist

end CriticalCss
