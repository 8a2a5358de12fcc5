import DraEnv.Alignment.Report
import DraEnv.Containerd.Calls
import DraEnv.Deployment.DomainHook
import DraEnv.Dramachine.Machine
import DraEnv.Dramachine.Outcome
import DraEnv.Dramachine.Preservation
import DraEnv.Hugepages.Placement
import DraEnv.Hugepages.Retry
import DraEnv.Sriovvf.Balance
import DraEnv.Sriovvf.Confinement
import DraEnv.Sriovvf.Rerun
import DraEnv.Sriovvf.Selection
import DraEnv.Sriovvf.TryMode
import DraEnv.Virtinjectd.Closing
import DraEnv.Virtinjectd.Connection
import DraEnv.Virtinjectd.Limits
import DraEnv.Virtinjectd.Startup
import DraEnv.Virtinjectd.Teardown
import DraEnv.Virtinjectd.XdrCodec
import DraEnv.Workernode.Job
