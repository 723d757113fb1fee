import Rocksplicator.DirectIO.Faults
import Rocksplicator.DirectIO.Robust
import Rocksplicator.S3.Path
import Rocksplicator.S3.Objects
import Rocksplicator.Replicator.Contract
import Rocksplicator.Replicator.Entries
import Rocksplicator.Replicator.Progress
import Rocksplicator.Replicator.Lifetime
