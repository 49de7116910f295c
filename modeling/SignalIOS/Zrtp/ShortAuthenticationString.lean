import Mathlib.Data.List.GetD
import Mathlib.Data.List.Nodup
import SignalIOS.Util.NSData

/-! The two words that the parties of a call read to each other. -/
namespace SignalIOS.Zrtp

def pgpListEven : List String :=
  ["aardvark", "absurd", "accrue", "acme", "adrift", "adult", "afflict", "ahead", "aimless",
    "Algol", "allow", "alone", "ammo", "ancient", "apple", "artist", "assume", "Athens", "atlas",
    "Aztec", "baboon", "backfield", "backward", "banjo", "beaming", "bedlamp", "beehive",
    "beeswax", "befriend", "Belfast", "berserk", "billiard", "bison", "blackjack", "blockade",
    "blowtorch", "bluebird", "bombast", "bookshelf", "brackish", "breadline", "breakup",
    "brickyard", "briefcase", "Burbank", "button", "buzzard", "cement", "chairlift", "chatter",
    "checkup", "chisel", "choking", "chopper", "Christmas", "clamshell", "classic", "classroom",
    "cleanup", "clockwork", "cobra", "commence", "concert", "cowbell", "crackdown", "cranky",
    "crowfoot", "crucial", "crumpled", "crusade", "cubic", "dashboard", "deadbolt", "deckhand",
    "dogsled", "dragnet", "drainage", "dreadful", "drifter", "dropper", "drumbeat", "drunken",
    "Dupont", "dwelling", "eating", "edict", "egghead", "eightball", "endorse", "endow", "enlist",
    "erase", "escape", "exceed", "eyeglass", "eyetooth", "facial", "fallout", "flagpole",
    "flatfoot", "flytrap", "fracture", "framework", "freedom", "frighten", "gazelle", "Geiger",
    "glitter", "glucose", "goggles", "goldfish", "gremlin", "guidance", "hamlet", "highchair",
    "hockey", "indoors", "indulge", "inverse", "involve", "island", "jawbone", "keyboard",
    "kickoff", "kiwi", "klaxon", "locale", "lockup", "merit", "minnow", "miser", "Mohawk",
    "mural", "music", "necklace", "Neptune", "newborn", "nightbird", "Oakland", "obtuse",
    "offload", "optic", "orca", "payday", "peachy", "pheasant", "physique", "playhouse", "Pluto",
    "preclude", "prefer", "preshrunk", "printer", "prowler", "pupil", "puppy", "python",
    "quadrant", "quiver", "quota", "ragtime", "ratchet", "rebirth", "reform", "regain",
    "reindeer", "rematch", "repay", "retouch", "revenge", "reward", "rhythm", "ribcage",
    "ringbolt", "robust", "rocker", "ruffled", "sailboat", "sawdust", "scallion", "scenic",
    "scorecard", "Scotland", "seabird", "select", "sentence", "shadow", "shamrock", "showgirl",
    "skullcap", "skydive", "slingshot", "slowdown", "snapline", "snapshot", "snowcap",
    "snowslide", "solo", "southward", "soybean", "spaniel", "spearhead", "spellbind", "spheroid",
    "spigot", "spindle", "spyglass", "stagehand", "stagnate", "stairway", "standard", "stapler",
    "steamship", "sterling", "stockman", "stopwatch", "stormy", "sugar", "surmount", "suspense",
    "sweatband", "swelter", "tactics", "talon", "tapeworm", "tempest", "tiger", "tissue", "tonic",
    "topmost", "tracker", "transit", "trauma", "treadmill", "Trojan", "trouble", "tumor",
    "tunnel", "tycoon", "uncut", "unearth", "unwind", "uproot", "upset", "upshot", "vapor",
    "village", "virus", "Vulcan", "waffle", "wallet", "watchword", "wayside", "willow",
    "woodlark", "Zulu"]

def pgpListOdd : List String :=
  ["adroitness", "adviser", "aftermath", "aggregate", "alkali", "almighty", "amulet", "amusement",
    "antenna", "applicant", "Apollo", "armistice", "article", "asteroid", "Atlantic",
    "atmosphere", "autopsy", "Babylon", "backwater", "barbecue", "belowground", "bifocals",
    "bodyguard", "bookseller", "borderline", "bottomless", "Bradbury", "bravado", "Brazilian",
    "breakaway", "Burlington", "businessman", "butterfat", "Camelot", "candidate", "cannonball",
    "Capricorn", "caravan", "caretaker", "celebrate", "cellulose", "certify", "chambermaid",
    "Cherokee", "Chicago", "clergyman", "coherence", "combustion", "commando", "company",
    "component", "concurrent", "confidence", "conformist", "congregate", "consensus",
    "consulting", "corporate", "corrosion", "councilman", "crossover", "crucifix", "cumbersome",
    "customer", "Dakota", "decadence", "December", "decimal", "designing", "detector",
    "detergent", "determine", "dictator", "dinosaur", "direction", "disable", "disbelief",
    "disruptive", "distortion", "document", "embezzle", "enchanting", "enrollment", "enterprise",
    "equation", "equipment", "escapade", "Eskimo", "everyday", "examine", "existence", "exodus",
    "fascinate", "filament", "finicky", "forever", "fortitude", "frequency", "gadgetry",
    "Galveston", "getaway", "glossary", "gossamer", "graduate", "gravity", "guitarist",
    "hamburger", "Hamilton", "handiwork", "hazardous", "headwaters", "hemisphere", "hesitate",
    "hideaway", "holiness", "hurricane", "hydraulic", "impartial", "impetus", "inception",
    "indigo", "inertia", "infancy", "inferno", "informant", "insincere", "insurgent", "integrate",
    "intention", "inventive", "Istanbul", "Jamaica", "Jupiter", "leprosy", "letterhead",
    "liberty", "maritime", "matchmaker", "maverick", "Medusa", "megaton", "microscope",
    "microwave", "midsummer", "millionaire", "miracle", "misnomer", "molasses", "molecule",
    "Montana", "monument", "mosquito", "narrative", "nebula", "newsletter", "Norwegian",
    "October", "Ohio", "onlooker", "opulent", "Orlando", "outfielder", "Pacific", "pandemic",
    "Pandora", "paperweight", "paragon", "paragraph", "paramount", "passenger", "pedigree",
    "Pegasus", "penetrate", "perceptive", "performance", "pharmacy", "phonetic", "photograph",
    "pioneer", "pocketful", "politeness", "positive", "potato", "processor", "provincial",
    "proximate", "puberty", "publisher", "pyramid", "quantity", "racketeer", "rebellion",
    "recipe", "recover", "repellent", "replica", "reproduce", "resistor", "responsive",
    "retraction", "retrieval", "retrospect", "revenue", "revival", "revolver", "sandalwood",
    "sardonic", "Saturday", "savagery", "scavenger", "sensation", "sociable", "souvenir",
    "specialist", "speculate", "stethoscope", "stupendous", "supportive", "surrender",
    "suspicious", "sympathy", "tambourine", "telephone", "therapist", "tobacco", "tolerance",
    "tomorrow", "torpedo", "tradition", "travesty", "trombonist", "truncated", "typewriter",
    "ultimate", "undaunted", "underfoot", "unicorn", "unify", "universe", "unravel", "upcoming",
    "vacancy", "vagabond", "vertigo", "Virginia", "visitor", "vocalist", "voyager", "warranty",
    "Waterloo", "whimsical", "Wichita", "Wilmington", "Wyoming", "yesteryear", "Yucatan"]

def minSasBytes : ℕ := 2

namespace ShortAuthenticationStringGenerator

def generateFromData (sasBytes : NSData) : Throws String := do
  owsRequire (sasBytes.length ≥ minSasBytes)
  let wordIndexOne ← sasBytes.uint8At 0
  let wordIndexTwo ← sasBytes.uint8At 1
  return pgpListEven.getD wordIndexOne.toNat "" ++ " " ++ pgpListOdd.getD wordIndexTwo.toNat ""

/-- A number that tells words apart, whatever their capital letters. -/
def wordKey (word : String) : ℕ :=
  let bytes := word.toByteArray.data.toList
  bytes.foldl (fun n byte => 32 * n + byte.toNat % 32) 0 * 32 ^ (11 - bytes.length)

theorem nodup_of_wordKeys {words : List String}
    (h : List.IsChain (· < ·) (words.map wordKey)) : words.Nodup := by
  apply List.Nodup.of_map wordKey
  exact (List.isChain_iff_pairwise.mp h).imp Nat.ne_of_lt

set_option maxRecDepth 20000 in
theorem nodup_pgpListEven : pgpListEven.Nodup := nodup_of_wordKeys (by decide +kernel)

set_option maxRecDepth 20000 in
/-- The list is in order but for one word. -/
theorem nodup_pgpListOdd : pgpListOdd.Nodup := by
  have hmem : "Apollo" ∈ pgpListOdd := by decide +kernel
  have hrest : (pgpListOdd.erase "Apollo").Nodup := nodup_of_wordKeys (by decide +kernel)
  rw [(List.perm_cons_erase hmem).nodup_iff, List.nodup_cons]
  exact ⟨by decide +kernel, hrest⟩

set_option maxRecDepth 20000 in
theorem blank_notMem : ∀ word ∈ pgpListEven, (32 : UInt8) ∉ word.toByteArray.data.toList := by
  decide +kernel

theorem getD_inj {words : List String} (hlength : words.length = 256) (hnodup : words.Nodup)
    {i j : UInt8} (h : words.getD i.toNat "" = words.getD j.toNat "") : i = j := by
  have hi : i.toNat < words.length := hlength ▸ i.toNat_lt
  have hj : j.toNat < words.length := hlength ▸ j.toNat_lt
  rw [List.getD_eq_getElem _ _ hi, List.getD_eq_getElem _ _ hj] at h
  exact UInt8.toNat_inj.mp ((List.Nodup.getElem_inj_iff hnodup).mp h)

/-- What stands in front of the first blank, and behind it. -/
theorem append_blank_inj {xs xs' ys ys' : List UInt8} {blank : UInt8} (hxs : blank ∉ xs)
    (hxs' : blank ∉ xs') (h : xs ++ blank :: ys = xs' ++ blank :: ys') : xs = xs' ∧ ys = ys' := by
  induction xs generalizing xs' with
  | nil =>
    cases xs' with
    | nil => exact ⟨rfl, (List.cons.inj h).2⟩
    | cons x xs' => exact absurd ((List.cons.inj h).1 ▸ List.mem_cons_self) hxs'
  | cons x xs ih =>
    cases xs' with
    | nil => exact absurd ((List.cons.inj h).1 ▸ List.mem_cons_self) hxs
    | cons x' xs' =>
      obtain ⟨rfl, hrest⟩ := List.cons.inj h
      obtain ⟨rfl, hys⟩ := ih (fun hmem => hxs (List.mem_cons_of_mem _ hmem))
        (fun hmem => hxs' (List.mem_cons_of_mem _ hmem)) hrest
      exact ⟨rfl, hys⟩

/-- The words are those of two bytes. -/
theorem words_inj {i i' j j' : UInt8}
    (h : pgpListEven.getD i.toNat "" ++ " " ++ pgpListOdd.getD j.toNat "" =
      pgpListEven.getD i'.toNat "" ++ " " ++ pgpListOdd.getD j'.toNat "") : i = i' ∧ j = j' := by
  have heven : pgpListEven.length = 256 := by decide +kernel
  have hodd : pgpListOdd.length = 256 := by decide +kernel
  have hword (i : UInt8) : pgpListEven.getD i.toNat "" ∈ pgpListEven := by
    have hi : i.toNat < pgpListEven.length := heven ▸ i.toNat_lt
    rw [List.getD_eq_getElem _ _ hi]
    exact List.getElem_mem hi
  have hbytes := congrArg (fun s : String => s.toByteArray.data.toList) h
  simp only [String.toByteArray_append, ByteArray.data_append, Array.toList_append,
    List.append_assoc] at hbytes
  obtain ⟨hone, htwo⟩ := append_blank_inj (blank_notMem _ (hword i)) (blank_notMem _ (hword i'))
    hbytes
  have hstrings {s t : String} (hst : s.toByteArray.data.toList = t.toByteArray.data.toList) :
      s = t :=
    String.toByteArray_inj.mp (ByteArray.ext (Array.toList_inj.mp hst))
  exact ⟨getD_inj heven nodup_pgpListEven (hstrings hone),
    getD_inj hodd nodup_pgpListOdd (hstrings htwo)⟩

theorem generateFromData_cons (i j : UInt8) (later : NSData) :
    generateFromData (i :: j :: later) =
      .ok (pgpListEven.getD i.toNat "" ++ " " ++ pgpListOdd.getD j.toNat "") := by
  have hlength : owsRequire ((i :: j :: later).length ≥ minSasBytes) = .ok () :=
    if_pos (Nat.le_add_left 2 later.length)
  have hone : NSData.uint8At (i :: j :: later) 0 = .ok i := NSData.uint8At_eq_ok.mpr rfl
  have htwo : NSData.uint8At (i :: j :: later) 1 = .ok j := NSData.uint8At_eq_ok.mpr rfl
  rw [generateFromData, hlength, hone, htwo]
  rfl

/-- Who compares the words compares the first two bytes. -/
theorem generateFromData_eq_iff {sasBytes sasBytes' : NSData} (h : minSasBytes ≤ sasBytes.length)
    (h' : minSasBytes ≤ sasBytes'.length) :
    generateFromData sasBytes = generateFromData sasBytes' ↔
      List.take minSasBytes sasBytes = List.take minSasBytes sasBytes' := by
  match sasBytes, h, sasBytes', h' with
  | i :: j :: later, _, i' :: j' :: later', _ =>
    rw [generateFromData_cons, generateFromData_cons]
    change _ ↔ [i, j] = [i', j']
    constructor
    · intro hwords
      obtain ⟨rfl, rfl⟩ := words_inj (Except.ok.inj hwords)
      rfl
    · intro hbytes
      obtain ⟨rfl, hrest⟩ := List.cons.inj hbytes
      obtain ⟨rfl, _⟩ := List.cons.inj hrest
      rfl

end ShortAuthenticationStringGenerator
end SignalIOS.Zrtp
