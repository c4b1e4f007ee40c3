import Gremlin.Proofs.Json.Calls
import Gremlin.Proofs.Json.Doubles
import Gremlin.Proofs.Json.Predicates
import Gremlin.Proofs.Number.SingleText
import Gremlin.Proofs.Reading.Lookalikes
import Gremlin.Proofs.Session.Aliases
import Gremlin.Proofs.Session.Discipline
import Gremlin.Proofs.Session.Embedding
import Gremlin.Proofs.Session.Erasure
import Gremlin.Proofs.Session.Independence
import Gremlin.Proofs.Session.Requoting
import Gremlin.Proofs.Text.Inspected
import Gremlin.Proofs.Writing.Literals
import Gremlin.Version
