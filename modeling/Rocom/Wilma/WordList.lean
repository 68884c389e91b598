import Mathlib.Data.List.Nodup
import Mathlib.Data.Nat.Bitwise
import Rocom.Lib.CString

/-! The words of components/wilma/word_list.c. -/
namespace Rocom.Wilma

open CString

/-- `word_list`: 1024 different words of at most ten small letters. -/
structure WordList where
  word : Fin 1024 → Str
  distinct : Function.Injective word
  letters : ∀ i, ∀ c ∈ (word i).chars, 0x61 ≤ c ∧ c ≤ 0x7a
  short : ∀ i, (word i).strlen ≤ 10

theorem WordList.lacks (words : WordList) {sep : UInt8} (outside : sep < 0x61) (i : Fin 1024) :
    sep ∉ (words.word i).chars := by
  intro mem
  have bound := (words.letters i sep mem).1
  exact absurd outside (UInt8.not_lt.mpr bound)

def wordTexts : List String :=
  ["cannon", "east", "fire", "gas", "rub", "sword", "syringe", "village", "week", "west", "north",
   "south", "cancer", "venom", "spear", "verse", "free", "horn", "live", "mask", "angle", "death",
   "equator", "news", "noise", "nut", "petrol", "pleasure", "powder", "spy", "touch", "town",
   "user", "veil", "tremor", "atom", "wound", "whip", "war", "video", "turnip", "tape", "tank",
   "system", "tale", "sushi", "smell", "sink", "shout", "rust", "rim", "receipt", "quilt",
   "quince", "quiver", "punch", "blood", "army", "rifle", "smoke", "name", "place", "plane",
   "prison", "rake", "rent", "risk", "road", "route", "school", "shake", "sleet", "street",
   "thief", "run", "love", "dance", "act", "eat", "fall", "feel", "find", "flow", "spin", "race",
   "toss", "sing", "swim", "poem", "catch", "basic", "math", "fax", "fair", "film", "flat", "fish",
   "gear", "gift", "goal", "hero", "herb", "kind", "lady", "mint", "art", "oval", "pure", "rock",
   "view", "vote", "wise", "wave", "wire", "award", "brave", "brown", "cabin", "cable", "chain",
   "charm", "dream", "peace", "quick", "quiet", "salad", "solid", "topic", "curtain", "game",
   "music", "cloth", "plant", "polite", "food", "vegetable", "furniture", "science", "bird",
   "nature", "flower", "energy", "insect", "net", "area", "baby", "back", "basis", "bath", "bay",
   "board", "body", "bonus", "boss", "breath", "bush", "butter", "buyer", "cage", "calendar",
   "camp", "canvas", "card", "care", "case", "cash", "cast", "cell", "cellar", "cement", "cent",
   "century", "chalk", "channel", "cheese", "city", "clam", "class", "climate", "clover", "club",
   "coach", "coil", "collar", "color", "company", "concrete", "cord", "cork", "cough", "country",
   "crack", "crate", "crayon", "cream", "creature", "credit", "crown", "current", "curve", "dark",
   "date", "decade", "deck", "degree", "depth", "diesel", "dime", "dish", "disk", "distance",
   "door", "drain", "drama", "drawer", "drill", "drink", "drop", "drum", "dust", "earth", "edge",
   "engine", "entry", "equation", "eraser", "event", "exam", "exit", "fact", "factory", "fan",
   "fang", "farm", "faucet", "feast", "fence", "fever", "field", "file", "flame", "foot", "force",
   "form", "formula", "fountain", "frame", "front", "fruit", "fuel", "garden", "giant", "glass",
   "glove", "glue", "grade", "grain", "graph", "grid", "grip", "group", "guest", "guide", "half",
   "hat", "heat", "home", "hook", "hope", "hour", "house", "idea", "impulse", "income", "ink",
   "interest", "item", "jar", "jewel", "join", "journey", "kettle", "kick", "lab", "lace", "lack",
   "law", "lawn", "left", "letter", "level", "library", "life", "lift", "light", "link", "liquid",
   "list", "load", "log", "logo", "look", "low", "lumber", "lunch", "machine", "magic", "mail",
   "mall", "map", "market", "mars", "mass", "mat", "matrix", "matter", "meal", "media", "memory",
   "menu", "metal", "mind", "mine", "minute", "mirror", "mode", "money", "monk", "month", "mood",
   "mop", "motion", "movie", "mud", "mug", "nation", "note", "number", "office", "ornament",
   "owner", "pack", "page", "paint", "pair", "pan", "parcel", "parent", "park", "part", "patch",
   "person", "pest", "pet", "phone", "picture", "pill", "pin", "plan", "planet", "plastic", "play",
   "plot", "plough", "point", "pole", "port", "porter", "position", "post", "pot", "power",
   "price", "print", "profit", "pump", "quartz", "question", "rack", "range", "rate", "ratio",
   "ray", "right", "ring", "rod", "role", "rope", "rule", "sack", "saddle", "sail", "sample",
   "sauce", "scale", "scene", "scent", "second", "self", "shade", "sheet", "shelf", "shell",
   "shop", "shower", "side", "sign", "silk", "site", "size", "skill", "sleep", "slip", "slope",
   "smile", "soap", "society", "soda", "song", "sort", "sound", "space", "spade", "spark", "spot",
   "stage", "stamp", "stand", "state", "station", "steak", "steam", "step", "stew", "stitch",
   "story", "stove", "straw", "string", "study", "swing", "task", "tattoo", "tent", "term", "test",
   "text", "theory", "thing", "thought", "thread", "ticket", "tile", "tilt", "toast", "tool",
   "top", "trade", "tree", "trip", "trophy", "truth", "twist", "type", "union", "unit", "universe",
   "value", "vase", "vessel", "vest", "voice", "wallet", "weapon", "weather", "web", "weight",
   "while", "whistle", "wonder", "wool", "word", "work", "world", "yard", "yarn", "youth", "ant",
   "fly", "spider", "cricket", "mosquito", "ape", "snail", "snake", "bull", "bee", "beetle",
   "cockroach", "crab", "lizard", "mouse", "buffalo", "cat", "donkey", "frog", "goose", "gorilla",
   "goat", "giraffe", "gecko", "horse", "leopard", "lion", "chimpanzee", "camel", "kangaroo",
   "monkey", "cheetah", "cow", "jackal", "tiger", "zebra", "sloth", "tortoise", "oyster",
   "elephant", "rhino", "wolf", "hippo", "dinosaur", "dodo", "shark", "koala", "puma", "dolphin",
   "whale", "tuna", "fox", "dragon", "crocodile", "yak", "sheep", "octopus", "panda", "panther",
   "rabbit", "walrus", "eagle", "dove", "chicken", "crow", "bat", "duck", "hawk", "owl", "crane",
   "cobra", "parrot", "penguin", "robin", "swan", "squid", "squirrel", "ostrich", "kiwi", "pigeon",
   "vulture", "lap", "jaw", "lip", "eye", "face", "elbow", "arm", "bone", "brain", "chest", "chin",
   "ear", "claw", "nail", "skeleton", "skin", "finger", "hip", "leg", "head", "heart", "hair",
   "knee", "throat", "thumb", "mouth", "hand", "muscle", "stomach", "feet", "kidney", "cheek",
   "liver", "flesh", "neck", "tooth", "tongue", "nerve", "nose", "wrist", "toe", "thigh",
   "feather", "wing", "lung", "shoulder", "tail", "vein", "stem", "trunk", "twig", "branch",
   "suit", "sweater", "towel", "sock", "tie", "cap", "frock", "pocket", "pant", "skirt", "shirt",
   "shoe", "linen", "coat", "jacket", "jeans", "trouser", "scarf", "black", "red", "blue",
   "yellow", "green", "white", "umbrella", "tub", "tube", "pipe", "ladder", "lamp", "tap",
   "telephone", "telescope", "screw", "watch", "clock", "motor", "radio", "wheel", "pen", "pencil",
   "needle", "computer", "alarm", "compass", "anchor", "axle", "belt", "button", "bulb", "bottle",
   "helmet", "calculator", "basin", "basket", "battery", "blade", "book", "plug", "socket",
   "camera", "oven", "hammer", "printer", "speaker", "shovel", "scissor", "switch", "bag", "paper",
   "bucket", "key", "lock", "candle", "lily", "orchid", "rose", "daffodil", "dahlia", "lotus",
   "tulip", "soup", "salt", "sugar", "biscuit", "bread", "bun", "cake", "candy", "chocolate",
   "juice", "muffin", "pizza", "cookie", "jam", "waffle", "jelly", "pickle", "pie", "pasta", "cup",
   "spoon", "fork", "plate", "almond", "apple", "apricot", "avocado", "banana", "mango", "cashew",
   "cherry", "guava", "orange", "papaya", "pear", "grape", "bench", "bed", "desk", "chair", "sofa",
   "table", "ambulance", "bicycle", "bike", "boat", "car", "cart", "bus", "carriage", "helicopter",
   "jeep", "truck", "van", "ship", "train", "jet", "ball", "hockey", "tennis", "soccer", "kite",
   "polo", "dice", "chess", "skate", "grass", "cactus", "cotton", "rice", "tea", "coffee", "corn",
   "mushroom", "garlic", "pepper", "oat", "vanilla", "wheat", "cocoa", "olive", "palm", "bamboo",
   "oak", "pine", "leaf", "thorn", "root", "seed", "boy", "child", "girl", "dad", "mom", "woman",
   "man", "father", "children", "brother", "wife", "mother", "uncle", "son", "daughter", "kid",
   "actor", "author", "beast", "king", "queen", "farmer", "clown", "pilot", "doctor", "cook",
   "soldier", "student", "nurse", "manager", "police", "lawyer", "judge", "poet", "teacher",
   "sister", "minister", "governor", "gravity", "antenna", "electron", "proton", "neutron",
   "plasma", "photon", "rocket", "autumn", "winter", "summer", "spring", "line", "square",
   "circle", "cube", "sphere", "triangle", "ellipse", "device", "rectangle", "wall", "tunnel",
   "tower", "pool", "hole", "arch", "base", "beam", "building", "castle", "floor", "bridge",
   "ceiling", "nest", "gate", "window", "hall", "pillar", "pyramid", "room", "marble", "sponge",
   "locket", "ice", "bell", "air", "badge", "balloon", "bangle", "bead", "blanket", "boot",
   "diary", "clip", "coin", "purse", "comb", "diamond", "perfume", "stick", "flag", "pillow",
   "cover", "toy", "gem", "doll", "mist", "fog", "cloud", "rain", "hurricane", "snow", "tornado",
   "storm", "gold", "helium", "hydrogen", "silver", "iridium", "iron", "copper", "calcium",
   "carbon", "nitrogen", "sodium", "oxygen", "zinc", "silicon", "plutonium", "lead", "mercury",
   "tin", "titanium", "platinum", "uranium", "neon", "brass", "steel", "bank", "bill", "border",
   "bottom", "boundary", "bow", "box", "brake", "piano", "flute", "violin", "guitar", "harmonica",
   "cabbage", "lettuce", "broccoli", "carrot", "cucumber", "bean", "chili", "onion", "potato",
   "tomato", "lemon", "radish", "soy", "tip", "brick", "broom", "brush", "bubble", "ginger",
   "brinjal", "water", "soil", "clay", "stone", "sky", "morning", "night", "forest", "eclipse",
   "tide", "thunder", "tsunami", "wind", "coal", "sand", "magnet", "egg", "wood", "honey", "wax",
   "milk", "oil", "dawn", "dusk", "sea", "pearl", "volcano", "ocean", "beach", "land", "glacier",
   "canal", "cave", "river", "cliff", "lake", "island", "valley", "continent", "mountain", "peak",
   "hill", "pond", "coast", "desert", "ground", "star", "orbit", "galaxy", "asteroid", "aurora",
   "satellite", "meteor", "nebula", "pulsar", "falcon", "mammoth", "dress", "lens", "wrench",
   "crowd", "dome", "roof", "blizzard"]

/-- The bytes of a word of the source. -/
def wordChars (word : String) : List UInt8 := word.toByteArray.data.toList

/-- The bytes read as the digits of one number. -/
def wordKey (word : String) : Nat := (wordChars word).foldl (fun n c => n * 256 + c.toNat) 0

/-- No number of the list is in the set `seen`, nor twice in the list. -/
def unseen (seen : Nat) : List Nat → Bool
  | [] => true
  | n :: ns => !seen.testBit n && unseen (seen ||| 1 <<< n) ns

theorem unseen_sound {seen : Nat} {ns : List Nat} (h : unseen seen ns = true) :
    ns.Nodup ∧ ∀ n ∈ ns, seen.testBit n = false := by
  induction ns generalizing seen with
  | nil => exact ⟨List.nodup_nil, nofun⟩
  | cons n ns ih =>
    rw [unseen, Bool.and_eq_true, Bool.not_eq_true'] at h
    obtain ⟨nodup, rest⟩ := ih h.2
    have marked (k : Nat) : (seen ||| 1 <<< n).testBit k = (seen.testBit k || decide (n = k)) := by
      rw [Nat.testBit_or, Nat.one_shiftLeft, Nat.testBit_two_pow]
    simp only [marked, Bool.or_eq_false_iff, decide_eq_false_iff_not] at rest
    refine ⟨List.nodup_cons.mpr ⟨fun again => (rest n again).2 rfl, nodup⟩, ?_⟩
    intro k member
    rcases List.mem_cons.mp member with rfl | later
    · exact h.1
    · exact (rest k later).1

theorem length_wordTexts : wordTexts.length = 1024 := by decide +kernel

/-- Modulo this number, which a search has found, the words are still different. -/
theorem keys_nodup : (wordTexts.map fun word => wordKey word % 63462).Nodup :=
  (unseen_sound (by decide +kernel : unseen 0 _ = true)).1

/-- At most ten bytes, small letters all. -/
def wordOk (word : String) : Bool :=
  Nat.ble (wordChars word).length 10 &&
    (wordChars word).all fun c => Nat.ble 0x61 c.toNat && Nat.ble c.toNat 0x7a

theorem wordTexts_ok : wordTexts.all wordOk = true := by decide +kernel

def wordText (i : Fin 1024) : String := wordTexts.get (i.cast length_wordTexts.symm)

theorem wordText_ok (i : Fin 1024) :
    (wordChars (wordText i)).length ≤ 10 ∧ ∀ c ∈ wordChars (wordText i), 0x61 ≤ c ∧ c ≤ 0x7a := by
  have ok := List.all_eq_true.mp wordTexts_ok (wordText i) (List.get_mem _ _)
  simp only [wordOk, Bool.and_eq_true, Nat.ble_eq, List.all_eq_true] at ok
  exact ok

theorem wordText_injective {i j : Fin 1024}
    (same : wordChars (wordText i) = wordChars (wordText j)) : i = j := by
  have keys : wordKey (wordText i) % 63462 = wordKey (wordText j) % 63462 := by
    rw [wordKey, wordKey, same]
  have bound (k : Fin 1024) : k.1 < (wordTexts.map fun word => wordKey word % 63462).length := by
    rw [List.length_map, length_wordTexts]
    exact k.isLt
  have at_place (k : Fin 1024) :
      (wordTexts.map fun word => wordKey word % 63462).get ⟨k, bound k⟩ =
        wordKey (wordText k) % 63462 :=
    List.getElem_map _
  have places := (at_place i).trans (keys.trans (at_place j).symm)
  exact Fin.ext (Fin.mk.inj (keys_nodup.injective_get places))

/-- The words of the source. -/
@[irreducible] def wordList : WordList where
  word i := ⟨wordChars (wordText i), fun nul => absurd ((wordText_ok i).2 0 nul).1 (by decide)⟩
  distinct := fun _ _ same => wordText_injective (congrArg Str.chars same)
  letters := fun i => (wordText_ok i).2
  short := fun i => (wordText_ok i).1

end Rocom.Wilma
