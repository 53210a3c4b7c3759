import SparkLedger.Cluster.Basic

/-!
# Serving requests

A request goes to the first rule that is for it. If the rule does not answer, the cluster does:
behind the proxy with a body, and else as an API server. A merge patch that names a version is
refused once the object has another one, and an object that is there is not created again. What
asks to watch is never answered.
-/

namespace SparkLedger.Cluster

/-! ## Rules -/

/-- Whether one text is a part of another. -/
def isPart (part : List Char) : List Char → Bool
  | [] => part.isEmpty
  | c :: cs => part.isPrefixOf (c :: cs) || isPart part cs

/-- Whether a request asks to watch, anywhere in its query. -/
def asksToWatch (q : Kube.Request) : Bool :=
  q.url.query.any fun query => isPart "watch=true".toList query.toList

/-- Whether a rule is for a request. -/
def Rule.isFor (r : Rule) (q : Kube.Request) : Bool :=
  r.method.all (· == q.method.name) && isPart r.part.toList q.line.toList

/-- The effect of the first rule for a request, and the rules after it. -/
def fire (q : Kube.Request) : List Rule → Option (Effect × List Rule)
  | [] => none
  | r :: rest =>
    if r.isFor q then
      some (r.effect, if r.times ≤ 1 then rest else { r with times := r.times - 1 } :: rest)
    else (fire q rest).map fun (effect, rest) => (effect, r :: rest)

/-! ## Answers of the API server -/

/-- The failure of a request. -/
def failure (code : Nat) (reason message : String) : Response :=
  .json code (.obj [("apiVersion", .str "v1"), ("code", .int code), ("kind", .str "Status"),
    ("message", .str message), ("metadata", .obj []), ("reason", .str reason),
    ("status", .str "Failure")])

/-- The answer where nothing is. -/
def notFound (path : String) : Response := failure 404 "NotFound" (path ++ " not found")

/-- A list of objects, as of the version given last. -/
def listOf (c : Cluster) (kind : String) (items : List Json) : Response :=
  .json 200 (.obj [("items", .arr items), ("kind", .str kind),
    ("metadata", .obj [("resourceVersion", .str (toString c.version))])])

/-- The text of a member of an object's metadata. -/
def metadataText? (j : Json) (key : String) : Option String :=
  (j.member? "metadata" >>= (·.member? key)) >>= Json.asString?

/-- The last part of a path. -/
def lastPart (path : String) : String :=
  String.ofList (path.toList.reverse.takeWhile (· ≠ '/')).reverse

/-- Whether a path ends so. -/
def endsIn (path ending : String) : Bool := ending.toList.isSuffixOf path.toList

/-- The pods of a collection. -/
def podsIn (c : Cluster) (collection : String) : List Json :=
  let isIn (path : List Char) :=
    if collection = "/api/v1/pods" then isPart "/pods/".toList path
    else (collection ++ "/").toList.isPrefixOf path
  (c.objects.toList.filter fun o => isIn o.1.toList).map (·.2)

/-- Answers a reading request. -/
def get (c : Cluster) (path : String) : Response :=
  if endsIn path "/services" then c.listOf "ServiceList" ((c.services.find? path).getD [])
  else if endsIn path "/pods" then c.listOf "PodList" (c.podsIn path)
  else
    match c.objects.find? path with
    | some object => .json 200 object
    | none => notFound path

/-- Stores an object and answers with it. -/
def storeAnswering (c : Cluster) (path : String) (object : Json) : Response × Cluster :=
  (.json 200 (versioned (c.version + 1) object), c.store path object)

/-- Answers a creating request. -/
def create (c : Cluster) (collection : String) (object : Json) : Response × Cluster :=
  let name := (metadataText? object "name").getD ""
  let path := collection ++ "/" ++ name
  if c.objects.contains path then (failure 409 "AlreadyExists" (name ++ " already exists"), c)
  else c.storeAnswering path (withMetadata "uid" ("uid-" ++ name) object)

/-- Whether a patch names a version that the object does not have. -/
def isStale (patch object : Json) : Bool :=
  match patch.member? "metadata" >>= (·.member? "resourceVersion") with
  | none => false
  | some .null => false
  | some version =>
    !version.same (((object.member? "metadata" >>= (·.member? "resourceVersion"))).getD .null)

/-- Answers a patching request. -/
def patch (c : Cluster) (path : String) (patch : Json) : Response × Cluster :=
  match c.objects.find? path with
  | none => (notFound path, c)
  | some object =>
    if isStale patch object then
      (failure 409 "Conflict" ("the object '" ++ lastPart path ++ "' has been modified"), c)
    else c.storeAnswering path (patch.merge object)

/-- Answers a request that no rule has answered. -/
def answer (c : Cluster) (q : Kube.Request) : Response × Cluster :=
  if isPart "/proxy/".toList q.url.path.toList then
    ((c.bodies.find? q.url.path).getD (.text 404 "not found"), c)
  else
    match q.method with
    | .get => (c.get q.url.path, c)
    | .post => c.create q.url.path (q.body.getD .null)
    | .patch => c.patch q.url.path (q.body.getD .null)

/-- Serves a request that does not ask to watch. -/
def serve (c : Cluster) (q : Kube.Request) : Response × Cluster :=
  match fire q c.rules with
  | none => c.answer q
  | some (.respond r, rules) => (r, { c with rules })
  | some (.meddle path change, rules) => ({ c with rules }.meddle path change).answer q

end SparkLedger.Cluster
