import SelectionEngine.Resolver.Records
import SelectionEngine.Schema.Source

namespace SelectionEngine.Showcase

/-- A field without arguments. -/
def plain (name : String) (type : TypeRef) : FieldDef Store := { name, type }

def required (type : BuiltIn) : TypeRef := .nonNull (.builtIn type)

def optional (type : BuiltIn) : TypeRef := .builtIn type

/-- An argument or input field without a default. -/
def input (name : String) (type : TypeRef) : ArgumentDef := { name, type }

def diceSides : ArgumentDef := { name := "numSides", type := optional .int, default := some (.int 6) }

/-- The fields of everything that is published. -/
def contentFields : List (FieldDef Store) := [plain "id" (required .id), plain "title" (optional .string)]

def query : ObjectType Store where
  name := "Query"
  fields :=
    [plain "hello" (optional .string),
      plain "quoteOfTheDay" (optional .string),
      plain "random" (required .float),
      plain "rollThreeDice" (.list (optional .int)),
      { name := "rollDice"
        type := .list (optional .int)
        arguments := [input "numDice" (required .int), diceSides] },
      { name := "getDie", type := .named "RandomDie", arguments := [diceSides] },
      { name := "getMessage", type := .named "Message", arguments := [input "id" (required .id)] },
      plain "getMessages" (.list (.named "Message")),
      { name := "getArticle", type := .named "Article", arguments := [input "id" (required .id)] },
      plain "feed" (.list (.named "Content"))]

def randomDie : ObjectType Store where
  name := "RandomDie"
  fields :=
    [plain "numSides" (required .int),
      plain "rollOnce" (required .int),
      { name := "roll", type := .list (optional .int), arguments := [input "numRolls" (required .int)] }]

def mutation : ObjectType Store where
  name := "Mutation"
  fields :=
    [{ name := "createMessage", type := .named "Message", arguments := [input "input" (.named "MessageInput")] },
      { name := "updateMessage"
        type := .named "Message"
        arguments := [input "id" (required .id), input "input" (.named "MessageInput")] },
      { name := "createArticle"
        type := .named "Article"
        arguments := [input "input" (.nonNull (.named "ArticleInput"))] },
      { name := "createPodcast"
        type := .named "Podcast"
        arguments := [input "input" (.nonNull (.named "PodcastInput"))] }]

/-- The types of a schema with dice, messages and published content. -/
def declarations : Declarations Store where
  interfaces := [{ name := "Content", fields := contentFields }]
  inputs :=
    [{ name := "MessageInput", fields := [input "content" (optional .string), input "author" (optional .string)] },
      { name := "ArticleInput", fields := [input "title" (optional .string), input "bodyText" (required .string)] },
      { name := "PodcastInput", fields := [input "title" (optional .string), input "audio" (required .string)] }]
  objects :=
    [query, randomDie, mutation,
      { name := "Message"
        fields :=
          [plain "id" (required .id), plain "content" (optional .string), plain "author" (optional .string)] },
      { name := "Article"
        interfaces := ["Content"]
        fields := contentFields ++ [plain "bodyText" (optional .string)] },
      { name := "Podcast"
        interfaces := ["Content"]
        fields := contentFields ++ [plain "audio" (optional .string)] }]

/-- The names of the collections in the store. -/
def messages : String := "messages"

def content : String := "content"

/-- The numbers that are drawn at a place of the response, one for each count.
They are below `2 ^ 53`. -/
abbrev Draws := Path → Nat → Nat

/-- One step of a generator of 64 bits. -/
def mix (state n : Nat) : Nat := ((state + n + 1) * 6364136223846793005 + 1442695040888963407) % UInt64.size

/-- Numbers that a seed, the place and the count determine. -/
def draws (seed : Nat) : Draws := fun path count =>
  mix (mix (path.text.toList.foldl (fun state c => mix state c.toNat) seed) count) 0 >>> 11

def defaultSides : Int := 6

/-- How many dice can be rolled at once. -/
def maxDice : Nat := 1000

/-- Rolls dice that have `sides` sides. -/
def roll (draw : Nat → Nat) (count sides : Int) : Except ResolverError (List Value) :=
  if count < 0 ∨ maxDice < count then
    .error ⟨s!"cannot roll {count} dice, the number of dice must be between 0 and {maxDice}", []⟩
  else if sides < 1 then .error ⟨s!"a die needs at least one side, got {sides}", []⟩
  else .ok ((List.range count.toNat).map fun n => .int (1 + draw n % sides))

/-- The number of sides from the argument `numSides`. -/
def sides (info : ResolveInfo) : Except ResolverError Int :=
  (info.argument (Value.optional Value.toInt64) "numSides").map (·.getD defaultSides)

/-- The number of sides of the die that a field is selected on. -/
def parentSides (info : ResolveInfo) : Except ResolverError Int :=
  match (info.parent.property? "numSides").bind Value.asInt64? with
  | some n => .ok n
  | none => .error ⟨"die has no sides", []⟩

/-- A resolver that only computes. -/
def computing (f : ResolveInfo → Except ResolverError Value) : Resolver Store :=
  .immediate fun info => .ofExcept (f info)

/-- Keeps a resolved article and turns everything else into null. -/
def articleOnly : Outcome → Outcome
  | .value v => .value (if (v.property? "bodyText").isSome then v else .null)
  | other => other

/-- The resolvers of the queries. -/
def queries (draw : Draws) : List (String × Resolver Store) :=
  [("hello", computing fun _ => .ok (.string "Hello world!")),
    ("quoteOfTheDay", computing fun info =>
      .ok (.string (if draw info.path 0 % 2 = 0 then "Take it easy" else "Salvation lies within"))),
    ("random", computing fun info =>
      .ok (.double ((Double.nearest? false (draw info.path 0) (1 <<< 53)).getD (Double.zero false)))),
    ("rollThreeDice", computing fun info => (roll (draw info.path) 3 defaultSides).map .list),
    ("rollDice", computing fun info => do
      let count ← info.argument Value.toInt64 "numDice"
      return .list (← roll (draw info.path) count (← sides info))),
    ("getDie", computing fun info => do return .object [("numSides", .int (← sides info))]),
    ("getMessage", .getRecord messages),
    ("getMessages", .listRecords messages),
    ("getArticle", fun info => (Resolver.getRecord content info).bind fun outcome => .done (articleOnly outcome)),
    ("feed", .listRecords content)]

/-- The resolvers of a die. -/
def dieFields (draw : Draws) : List (String × Resolver Store) :=
  [("rollOnce", computing fun info => do
      return (← roll (draw info.path) 1 (← parentSides info)).headD .null),
    ("roll", computing fun info => do
      let count ← info.argument Value.toInt64 "numRolls"
      return .list (← roll (draw info.path) count (← parentSides info)))]

/-- The resolvers of the mutations. -/
def mutations : List (String × Resolver Store) :=
  [("createMessage", .createRecord messages),
    ("updateMessage", .updateRecord messages),
    ("createArticle", .createRecord content),
    ("createPodcast", .createRecord content)]

/-- Everything that is bound to the types. -/
def bindings (draw : Draws) : Bindings Store where
  fields := (queries draw).map (fun (name, resolver) => (("Query", name), resolver)) ++
    (dieFields draw).map (fun (name, resolver) => (("RandomDie", name), resolver)) ++
    mutations.map fun (name, resolver) => (("Mutation", name), resolver)
  isTypeOf :=
    [("Article", fun value => (value.property? "bodyText").isSome),
      ("Podcast", fun value => (value.property? "audio").isSome)]

/-- The schema with its resolvers, which get their numbers from `draw`. -/
def schema (draw : Draws) : Except SchemaError (Schema Store) :=
  Schema.ofDeclarations ((bindings draw).bind declarations)

end SelectionEngine.Showcase
