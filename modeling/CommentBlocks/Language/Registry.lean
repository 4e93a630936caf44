import CommentBlocks.Document.Origin
import CommentBlocks.Language.Builtin
import Std.Data.HashMap

/-!
# The language registry

A registry finds profiles by identifier and by file extension. Profiles may share either; the one
listed first keeps it.

Extensions are looked up as they are written first and in ASCII lower case second, so a profile that
lists an extension with capitals is found by exactly that spelling.
-/

namespace CommentBlocks

/-- Profiles and the two ways to find them. -/
structure Registry where
  /-- All profiles, in the order listed. -/
  profiles : List Profile
  /-- The profile of each identifier. -/
  byId : Std.HashMap String Profile
  /-- The profile of each extension. -/
  byExtension : Std.HashMap String Profile

namespace Registry

/-- Give `profile` the extensions it lists, as far as they are still free. -/
def claimExtensions (index : Std.HashMap String Profile) (profile : Profile) :
    Std.HashMap String Profile :=
  profile.extensions.foldl (fun index extension ↦ index.insertIfNew extension profile) index

/-- The registry of a list of profiles. -/
def ofProfiles (profiles : List Profile) : Registry where
  profiles := profiles
  byId := profiles.foldl (fun index profile ↦ index.insertIfNew profile.id profile) ∅
  byExtension := profiles.foldl claimExtensions ∅

def builtin : Registry := ofProfiles Builtin.profiles

/-- The profile with an identifier. -/
def get? (registry : Registry) (id : String) : Option Profile := registry.byId[id]?

/-- The profile for a file extension, given with its dot. -/
def forExtension? (registry : Registry) (extension : String) : Option Profile :=
  registry.byExtension[extension]?.or registry.byExtension[extension.toLower]?

/-- The profile for the file at a path. -/
def forPath? (registry : Registry) (path : String) : Option Profile :=
  (Origin.pathExtension? path).bind fun extension ↦ registry.forExtension? ("." ++ extension)

/-- The identifiers of all languages, in the order listed. -/
def languages (registry : Registry) : List String := registry.profiles.map (·.id)

def size (registry : Registry) : Nat := registry.profiles.length

def isEmpty (registry : Registry) : Bool := registry.profiles.isEmpty

end Registry

end CommentBlocks
