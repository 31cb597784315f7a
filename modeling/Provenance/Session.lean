import Provenance.Config.Discovery
import Provenance.Fingerprint
import Provenance.Pipeline

/-!
# Sessions

A session is what a process settles before the first file: the configuration, the host, and the
fingerprint of what it will put out. One session is installed for a process; the first one stays.
-/

namespace Provenance

/-- The state that all transformations of a process share. -/
structure Session where
  config : ProjectConfig
  host : Host
  fingerprint : String
deriving DecidableEq

namespace Session

/-- The session of a configuration, for files that the transformer will finish. -/
def ofConfig (config : ProjectConfig) (transformer : Transformer) (host : Host) : Session where
  config
  host
  fingerprint := Fingerprint.ofOutput transformer.fingerprint config.document

/-- The session of a process that starts in a directory. -/
def load (t : FileTree) (cwd : Path) (given : Option String) (transformer : Transformer)
    (host : Host) : Except ConfigError Session :=
  (ProjectConfig.load t cwd given none).map (ofConfig · transformer host)

def options (s : Session) : Config.CompilerOptions := s.config.options

/-- The pipeline of a session over two stages. -/
def pipeline (s : Session) (compiler : Compiler) (transformer : Transformer) : Pipeline where
  compiler
  transformer
  options := s.options
  mode := s.host.mode

/-- The session that is installed after one is offered: the one already there, if there is one. -/
def install (current : Option Session) (offered : Session) : Session := current.getD offered

end Session

end Provenance
